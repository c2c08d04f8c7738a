/-
A lookahead buffer is a bookmark in a list. Over a stream that yields some
tokens, whatever is asked of a buffer is answered as if it had the list of
them at hand and a place in it: looking ahead reads the list, taking a
token goes one place on, and giving one back goes one place back, if the
token before the place was taken last and has not been given back since.

# How far the buffer has pulled

This shows in no answer. The tokens from the place on are the queue and
then what the stream below still yields, and where the one passes into the
other is the only thing that looking ahead changes (`Stands`).
-/
import LayeredLexer.Proofs.Stream.Layers

namespace LayeredLexer

-- ============================================================== bookmarks

/-- A place in a list of tokens, and whether the token before it may be
given back. -/
structure Bookmark where
  place : Nat := 0
  returnable : Bool := false
deriving DecidableEq, Repr

namespace Bookmark

variable (tokens : List Token)

/-- The token that may be given back. -/
def givable? (mark : Bookmark) : Option Token :=
  if mark.returnable then tokens[mark.place - 1]? else none

/-- What is answered at a bookmark, and where it is then. -/
def step (mark : Bookmark) : Operation → Except LexError Reply × Bookmark
  | .peek => (.ok (.shown tokens[mark.place]?), mark)
  | .hasMore => (.ok (.more tokens[mark.place]?.isSome), mark)
  | .peekNth n => (.ok (.shown tokens[mark.place + n]?), mark)
  | .consume =>
    match tokens[mark.place]? with
    | some token => (.ok (.taken token), ⟨mark.place + 1, true⟩)
    | none => (.error .endOfInput, mark)
  | .pushback token =>
    if mark.givable? tokens = some token then (.ok .accepted, ⟨mark.place - 1, false⟩)
    else (.error (.invalidPushback token), mark)

/-- The answers to operations that are done one after the other. -/
def results (mark : Bookmark) : List Operation → List (Except LexError Reply)
  | [] => []
  | op :: ops => (mark.step tokens op).1 :: (mark.step tokens op).2.results ops

/-- The token that may be given back comes before the place. -/
theorem drop_before {tokens : List Token} {mark : Bookmark} {token : Token}
    (h : mark.givable? tokens = some token) (hstarted : mark.returnable = true → 0 < mark.place) :
    tokens.drop (mark.place - 1) = token :: tokens.drop mark.place := by
  unfold givable? at h
  split at h
  next hreturnable =>
    have hpos := hstarted hreturnable
    obtain ⟨hless, hbefore⟩ := List.getElem?_eq_some_iff.1 h
    rw [List.drop_eq_getElem_cons hless, hbefore, Nat.sub_add_cancel hpos]
  next => cases h

end Bookmark

namespace Stream

variable {tokens later : List Token} {mark : Bookmark} {s inner : Stream}

-- =========================================================== looking ahead

/-- A pull of any number of tokens, from a stream that yields some, brings
the first of them, and tells whether there were as many. -/
theorem gather_yields (h : inner.Yields later) (missing : Nat) (pulled : List Token)
    (events : List Log.Event) :
    let (all, answer) := gather missing pulled inner events
    all = (later.take missing).reverse ++ pulled
      ∧ answer.result = .ok (decide (missing ≤ later.length))
      ∧ answer.stream.Yields (later.drop missing) := by
  induction missing generalizing inner later pulled events with
  | zero => exact ⟨rfl, rfl, h⟩
  | succ missing ih =>
      rcases hpeek : inner.peek with ⟨result, next, more⟩
      unfold gather
      rw [hpeek]
      cases later with
      | nil =>
          have hend := peek_peek_end h
          unfold Yields at h
          rw [hpeek] at h hend
          subst h
          exact ⟨rfl, rfl, congrArg Answer.result hend⟩
      | cons token rest =>
          obtain ⟨hshown, hrest⟩ := h
          rw [hpeek] at hshown hrest
          subst hshown
          obtain ⟨hall, hcame, hleft⟩ := ih hrest (token :: pulled) (events ++ more)
          refine ⟨?_, ?_, hleft⟩
          · rw [hall]
            simp
          · rw [hcame]
            simp

/-- What is pulled to look `n` places ahead shows the token there, if there
is one. -/
theorem getElem?_pulled (queue later : List Token) (n : Nat) :
    (if decide (n + 1 - queue.length ≤ later.length) then
        (queue ++ later.take (n + 1 - queue.length))[n]? else none)
      = (queue ++ later)[n]? := by
  simp only [decide_eq_true_eq]
  rw [List.getElem?_append, List.getElem?_append]
  by_cases hqueued : n < queue.length
  · have hnone : n + 1 - queue.length = 0 := by omega
    rw [if_pos hqueued, if_pos hqueued, if_pos (hnone ▸ Nat.zero_le _)]
  · rw [if_neg hqueued, if_neg hqueued]
    split
    next hcame => rw [List.getElem?_take_of_lt (by omega)]
    next hshort => rw [List.getElem?_eq_none (by omega)]

-- ================================================================ standing

/-- A buffer stands at a bookmark: from there on come its queue and what
the stream below yields, and it takes back what may be given back. -/
inductive Stands (tokens : List Token) (mark : Bookmark) : Stream → Prop
  | intro {lookahead : Lookahead} {inner : Stream} {later : List Token}
      (below : inner.Yields later)
      (ahead : tokens.drop mark.place = lookahead.queue ++ later)
      (behind : lookahead.last = mark.givable? tokens)
      (started : mark.returnable = true → 0 < mark.place) :
      Stands tokens mark (.buffer lookahead inner)

/-- A look shows the token at the place, and has it in the queue. -/
theorem Stands.look (h : Stands tokens mark s) :
    s.peek.result = .ok tokens[mark.place]?
      ∧ Stands tokens mark s.peek.stream
      ∧ s.peek.stream.own.head? = tokens[mark.place]? := by
  obtain @⟨lookahead, inner, later, below, ahead, behind, started⟩ := h
  have hplace : tokens[mark.place]? = (lookahead.queue ++ later).head? := by
    rw [← ahead, List.head?_drop]
  rw [hplace]
  cases hqueue : lookahead.queue with
  | cons token rest =>
      have hown : (buffer lookahead inner).own = token :: rest := hqueue
      rw [peek_buffer_held hqueue]
      refine ⟨rfl, .intro below ahead behind started, ?_⟩
      rw [hown]
      rfl
  | nil =>
      rw [hqueue] at ahead
      cases later with
      | nil =>
          have hnone : ∀ token, inner.peek.result ≠ .ok (some token) := by
            intro token hsome
            cases hsome.symm.trans below
          have hown : (buffer lookahead inner.peek.stream).own = [] := hqueue
          rw [peek_buffer_pass hnone hqueue]
          have hend : inner.peek.stream.Yields [] := congrArg Answer.result (peek_peek_end below)
          refine ⟨below, .intro hend ?_ behind started, ?_⟩
          · rw [ahead, hqueue]
          · rw [hown]
            rfl
      | cons token rest =>
          obtain ⟨hshown, hrest⟩ := below
          rw [peek_buffer_token hshown hqueue]
          exact ⟨rfl, .intro hrest ahead behind started, rfl⟩

/-- Taking the first token of the queue goes one place on. -/
theorem Stands.take (h : Stands tokens mark s) {token : Token}
    (hfront : s.own.head? = some token) : Stands tokens ⟨mark.place + 1, true⟩ s.drop := by
  obtain @⟨lookahead, inner, later, below, ahead, behind, started⟩ := h
  cases hqueue : lookahead.queue with
  | nil =>
      have hown : (buffer lookahead inner).own = [] := hqueue
      rw [hown] at hfront
      cases hfront
  | cons first rest =>
      have hown : (buffer lookahead inner).own = first :: rest := hqueue
      rw [hown] at hfront
      cases hfront
      rw [hqueue] at ahead
      rw [drop_buffer lookahead token rest inner hqueue]
      refine .intro below ?_ ?_ fun _ => Nat.succ_pos _
      · rw [← List.tail_drop, ahead]
        rfl
      · show some token = tokens[mark.place]?
        rw [← List.head?_drop, ahead]
        rfl

/-- Looking far ahead shows the token that many places on, and only moves
tokens into the queue. -/
theorem Stands.peekNth (h : Stands tokens mark s) (n : Nat) :
    (s.perform (.peekNth n)).result = .ok (.shown tokens[mark.place + n]?)
      ∧ Stands tokens mark (s.perform (.peekNth n)).stream := by
  obtain @⟨lookahead, inner, later, below, ahead, behind, started⟩ := h
  obtain ⟨hpulled, hcame, hleft⟩ := gather_yields below (n + 1 - lookahead.queue.length) [] []
  obtain ⟨hshown, hstream⟩ := perform_peekNth lookahead inner n
  rw [hpulled, List.append_nil, List.reverse_reverse] at hshown hstream
  rw [hshown, hstream, hcame]
  refine ⟨?_, .intro hleft ?_ behind started⟩
  · have hfound := getElem?_pulled lookahead.queue later n
    rw [← ahead, List.getElem?_drop] at hfound
    rw [← hfound]
    rfl
  · rw [ahead, List.append_assoc, List.take_append_drop]

/-- The token before the place is accepted if it may be given back, and
any other is refused. -/
theorem Stands.pushback (h : Stands tokens mark s) (token : Token) :
    (s.perform (.pushback token)).result = (mark.step tokens (.pushback token)).1
      ∧ Stands tokens (mark.step tokens (.pushback token)).2 (s.perform (.pushback token)).stream := by
  obtain @⟨lookahead, inner, later, below, ahead, behind, started⟩ := h
  unfold Bookmark.step
  dsimp only
  by_cases hlast : mark.givable? tokens = some token
  · obtain ⟨hreply, hstream⟩ := perform_pushback_last (behind.trans hlast) inner
    rw [if_pos hlast, hreply, hstream]
    refine ⟨rfl, .intro below ?_ rfl nofun⟩
    show tokens.drop (mark.place - 1) = token :: lookahead.queue ++ later
    rw [Bookmark.drop_before hlast started, ahead]
    rfl
  · obtain ⟨hreply, hstream⟩ := perform_pushback_other (behind ▸ hlast) inner
    rw [if_neg hlast, hreply, hstream]
    exact ⟨rfl, .intro below ahead behind started⟩

/-- Whatever is asked, a buffer answers what is answered at its bookmark,
and both go on to the same place. -/
theorem Stands.step (h : Stands tokens mark s) (op : Operation) :
    (s.perform op).result = (mark.step tokens op).1
      ∧ Stands tokens (mark.step tokens op).2 (s.perform op).stream := by
  obtain ⟨hresult, hstands, hfront⟩ := h.look
  cases op with
  | peek =>
      refine ⟨?_, hstands⟩
      show s.peek.result.map Reply.shown = _
      rw [hresult]
      rfl
  | hasMore =>
      refine ⟨?_, hstands⟩
      show (s.peek.result.map _).map Reply.more = _
      rw [hresult]
      rfl
  | consume =>
      unfold perform Bookmark.step
      cases hplace : tokens[mark.place]? with
      | none =>
          rw [hplace] at hresult
          rw [consume_of_peek_end hresult]
          exact ⟨rfl, hstands⟩
      | some token =>
          rw [hplace] at hresult hfront
          rw [consume_of_peek_token hresult]
          exact ⟨rfl, hstands.take hfront⟩
  | peekNth n => exact h.peekNth n
  | pushback token => exact h.pushback token

/-- So it answers any sequence of operations. -/
theorem Stands.results (h : Stands tokens mark s) (ops : List Operation) :
    s.results ops = mark.results tokens ops := by
  induction ops generalizing s mark with
  | nil => rfl
  | cons op ops ih =>
      obtain ⟨hresult, hnext⟩ := h.step op
      rw [Stream.results, Bookmark.results, hresult, ih hnext]

/-- A buffer around a stream that yields some tokens answers every
sequence of operations as a bookmark at the start of them does. -/
theorem Yields.results_buffer (h : inner.Yields tokens) (ops : List Operation) :
    (wrap .buffer inner).results ops = Bookmark.results tokens {} ops := by
  have hstart : Stands tokens {} (wrap .buffer inner) := .intro h rfl rfl nofun
  exact hstart.results ops

/-- Over the tokens of `a b`: a token is given back, again in vain, and the
end is looked at and not taken. -/
theorem Yields.results_buffer_two_words :
    let inner := ofSource (.ofString "a b")
    let a : Token := ⟨.word, "a", 0⟩
    let blank : Token := ⟨.space, " ", 1⟩
    let b : Token := ⟨.word, "b", 2⟩
    inner.Yields [a, blank, b]
      ∧ (wrap .buffer inner).results
          [.peekNth 1, .consume, .pushback a, .pushback a, .consume, .consume, .consume,
            .peekNth 7, .consume]
        = [.ok (.shown (some blank)), .ok (.taken a), .ok .accepted, .error (.invalidPushback a),
            .ok (.taken a), .ok (.taken blank), .ok (.taken b), .ok (.shown none),
            .error .endOfInput] := by
  intro inner a blank b
  have hdelivered : inner.delivered = ⟨[a, blank, b], .endOfInput⟩ := by
    have htext := delivered_over (Tokenizer.over_ofSource "a b") rfl
    refine htext.trans ?_
    cbv
  have htokens : inner.Yields inner.delivered.tokens :=
    yields_delivered (congrArg Delivery.last hdelivered)
  rw [hdelivered] at htokens
  exact ⟨htokens, htokens.results_buffer _⟩

end Stream

end LayeredLexer
