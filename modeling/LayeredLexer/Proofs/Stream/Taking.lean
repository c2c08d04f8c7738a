/-
Consuming a token is looking at it and then taking it, in every stack. The
layers go two ways about it. One that holds a token shows it and hands it
over; a buffer with nothing in its queue lets the stream below hand it
over, and looks at nothing itself. That the two ways come to the same is an
induction on the stack (`consume_eq_takeNext`), because the other way is
taken by the layer only as long as it is open to the stream below.

# How a layer pulls

A layer that fills up asks the stream below whether a token follows, and
then consumes it. Behind the answer to the question the token is shown
already, so it is the one that is consumed, and nothing else happens then
(`consume_shown`). So a look at a layer is the look below and a drop, which
is what the layers are defined by, and just as well the question and the
token that is consumed (`pull_eq`, and with it an equation for each layer).

# At the end

A look that finds the end leaves a stream that stands still. Nothing that
is asked of it changes that, until a token is given back (`Ended.after`).
-/
import LayeredLexer.Proofs.Stream.Layers

namespace LayeredLexer

namespace Stream

variable {s inner : Stream} {lookahead : Lookahead}

-- ======================================================= a look and a take

/-- Behind a look that shows a token, that token is consumed, and nothing
is met on the way. -/
theorem consume_shown {token : Token} (h : s.peek.result = .ok (some token)) :
    s.peek.stream.consume = ⟨.ok token, s.peek.stream.drop, []⟩ := by
  have hagain := peek_peek h
  rw [consume_of_peek_token (congrArg Answer.result hagain), hagain]

-- ================================================================ pulling

/-- Asks whether a token follows, and consumes it if one does. -/
def pull (s : Stream) : Answer (Option Token) :=
  match s.hasMore with
  | ⟨.ok true, next, events⟩ =>
    match next.consume with
    | ⟨result, last, more⟩ => ⟨result.map some, last, events ++ more⟩
  | ⟨.ok false, next, events⟩ => ⟨.ok none, next, events⟩
  | ⟨.error error, next, events⟩ => ⟨.error error, next, events⟩

/-- A pull is a look, and a drop of the token that it shows. -/
theorem pull_eq (s : Stream) :
    s.pull = match s.peek with
      | ⟨.ok (some token), next, events⟩ => ⟨.ok (some token), next.drop, events⟩
      | answer => answer := by
  have hshown := @consume_shown s
  unfold pull hasMore
  generalize s.peek = answer at hshown ⊢
  obtain ⟨error | _ | token, next, events⟩ := answer
  · rfl
  · rfl
  · have hconsume : next.consume = ⟨.ok token, next.drop, []⟩ := hshown rfl
    simp only [Except.map, Option.isSome_some, hconsume, List.append_nil]

/-- A line counter that holds nothing pulls a token and counts it. -/
theorem peek_lines_pull (line : Nat) (inner : Stream) :
    (lines ⟨none, line⟩ inner).peek = match inner.pull with
      | ⟨.ok (some token), next, events⟩ =>
        ⟨.ok (some token), .lines (LineCount.receive ⟨none, line⟩ token) next, events⟩
      | ⟨result, next, events⟩ => ⟨result, .lines ⟨none, line⟩ next, events⟩ := by
  rw [pull_eq, peek]
  rcases inner.peek with ⟨error | _ | token, next, events⟩ <;> rfl

/-- A check that holds nothing pulls a token and judges it. -/
theorem peek_balance_pull {nesting : Nesting} (h : nesting.pending = none) (inner : Stream) :
    (balance nesting inner).peek = match inner.pull with
      | ⟨.ok (some token), next, events⟩ => judge (some token) (nesting.receive token) next events
      | ⟨.ok none, next, events⟩ => judge none nesting.close next events
      | ⟨.error error, next, events⟩ => ⟨.error error, .balance nesting next, events⟩ := by
  rw [pull_eq, peek, h]
  rcases inner.peek with ⟨error | _ | token, next, events⟩ <;> rfl

/-- A buffer with an empty queue pulls a token into it. -/
theorem peek_buffer_pull (h : lookahead.queue = []) (inner : Stream) :
    (buffer lookahead inner).peek = match inner.pull with
      | ⟨.ok (some token), next, events⟩ =>
        ⟨.ok (some token), .buffer { lookahead with queue := [token] } next, events⟩
      | ⟨result, next, events⟩ => ⟨result, .buffer lookahead next, events⟩ := by
  rw [pull_eq, peek, h]
  rcases inner.peek with ⟨error | _ | token, next, events⟩ <;> rfl

/-- Looking far ahead is one pull after the other. -/
theorem gather_pull (missing : Nat) (pulled : List Token) (inner : Stream)
    (events : List Log.Event) :
    gather (missing + 1) pulled inner events = match inner.pull with
      | ⟨.ok (some token), next, more⟩ => gather missing (token :: pulled) next (events ++ more)
      | ⟨.ok none, next, more⟩ => (pulled, ⟨.ok false, next, events ++ more⟩)
      | ⟨.error error, next, more⟩ => (pulled, ⟨.error error, next, events ++ more⟩) := by
  rw [pull_eq, gather]
  rcases inner.peek with ⟨error | _ | token, next, more⟩ <;> rfl

-- ================================================================ the end

/-- A look finds the end, and changes nothing. -/
def Ended (s : Stream) : Prop := s.peek = ⟨.ok none, s, []⟩

/-- A buffer has come to the end if it has an empty queue and the stream
below has come to the end. -/
theorem ended_buffer_iff :
    (buffer lookahead inner).Ended ↔ lookahead.queue = [] ∧ inner.Ended := by
  unfold Ended
  cases hqueue : lookahead.queue with
  | cons token rest => simp [peek_buffer_held hqueue]
  | nil =>
      rw [peek, hqueue]
      rcases inner.peek with ⟨error | _ | token, next, events⟩ <;> simp

/-- A look at the end brings no tokens, however far ahead. -/
theorem Ended.gather (h : inner.Ended) (missing : Nat) :
    (gather (missing + 1) [] inner []).1 = []
      ∧ (gather (missing + 1) [] inner []).2.stream = inner := by
  unfold Stream.gather
  rw [h]
  exact ⟨rfl, rfl⟩

/-- At the end, whatever is asked leaves the stream at the end, unless a
token is given back. -/
theorem Ended.perform (h : s.Ended) {op : Operation} (hop : (s.perform op).result ≠ .ok .accepted) :
    (s.perform op).stream.Ended := by
  have hsame : s.peek.stream = s := congrArg Answer.stream h
  cases op with
  | peek =>
      show s.peek.stream.Ended
      rw [hsame]
      exact h
  | hasMore =>
      show s.peek.stream.Ended
      rw [hsame]
      exact h
  | consume =>
      show s.consume.stream.Ended
      rw [consume_of_peek_end (congrArg Answer.result h), hsame]
      exact h
  | peekNth n =>
      cases s with
      | buffer lookahead inner =>
          obtain ⟨hqueue, hinner⟩ := ended_buffer_iff.1 h
          obtain ⟨hpulled, hbelow⟩ := hinner.gather n
          rw [(perform_peekNth lookahead inner n).2]
          simp only [hqueue, List.length_nil, Nat.sub_zero, hpulled, hbelow]
          exact ended_buffer_iff.2 ⟨rfl, hinner⟩
      | _ => exact h
  | pushback token =>
      cases s with
      | buffer lookahead inner =>
          by_cases hlast : lookahead.last = some token
          · exact absurd (perform_pushback_last hlast inner).1 hop
          · obtain ⟨hqueue, hinner⟩ := ended_buffer_iff.1 h
            rw [(perform_pushback_other hlast inner).2]
            exact ended_buffer_iff.2 ⟨hqueue, hinner⟩
      | _ => exact h

/-- And whatever is asked one after the other. -/
theorem Ended.after (h : s.Ended) {ops : List Operation}
    (hops : .ok .accepted ∉ s.results ops) : (s.after ops).Ended := by
  induction ops generalizing s with
  | nil => exact h
  | cons op ops ih =>
      obtain ⟨hfirst, hrest⟩ := not_or.1 (List.mem_cons.not.1 hops)
      exact ih (h.perform (Ne.symm hfirst)) hrest

-- ================================================== looking and consuming

/-- Whatever state a stack is in: if a look shows a token, another look
shows it again, and it is what is consumed, with the look before or
without it, and the stream behind it is the same. If a look finds the end,
consuming answers that the input has ended, and every later look finds the
end too, until a token is given back. If a look raises an error, consuming
in its place raises the same error, logs the same, and leaves the same
stream. -/
theorem consume_after_look (s : Stream) :
    match s.peek.result with
    | .ok (some token) =>
      s.peek.stream.peek.result = .ok (some token)
        ∧ s.peek.stream.consume.result = .ok token
        ∧ s.consume.result = .ok token
        ∧ s.consume.stream = s.peek.stream.consume.stream
    | .ok none =>
      s.consume.result = .error .endOfInput
        ∧ s.peek.stream.consume.result = .error .endOfInput
        ∧ ∀ later, .ok .accepted ∉ s.peek.stream.results later →
          (s.peek.stream.after later).peek.result = .ok none
    | .error error => s.consume = ⟨.error error, s.peek.stream, s.peek.events⟩ := by
  rcases hshown : s.peek.result with error | _ | token
  · exact consume_of_peek_error hshown
  · have hended : s.peek.stream.Ended := peek_peek_end hshown
    refine ⟨?_, ?_, fun later hlater => ?_⟩
    · rw [consume_of_peek_end hshown]
    · rw [consume_of_peek_end (congrArg Answer.result hended)]
    · exact congrArg Answer.result (hended.after hlater)
  · have hbehind := consume_shown hshown
    have hdirect := consume_of_peek_token hshown
    refine ⟨congrArg Answer.result (peek_peek hshown), ?_, ?_, ?_⟩
    · rw [hbehind]
    · rw [hdirect]
    · rw [hdirect, hbehind]

/-- A buffer around a check meets the stray closer by a look or by
consuming, and has the closer itself next. -/
example :
    let s := stack [.balance, .buffer] (.ofString ")")
    s.peek.result = .error (.balance (.unexpectedCloser ')' 0))
      ∧ s.consume.result = .error (.balance (.unexpectedCloser ')' 0))
      ∧ s.consume.stream.consume.result = .ok ⟨.symbol, ")", 0⟩ := by
  decide +kernel

end Stream

end LayeredLexer
