/-
The offset of a tokenizer, and the source that it can be taken apart from.
At every point of every run of requests the offset is the number of
characters that were read and not given back. The token that is held is
the end of these characters, and the source goes on behind them.

# Reads and what they come to

A lexeme asks its source for one character after the other and gives the
last one back if it does not belong to it (`Phase.asks`). The offset
follows these requests (`CharSource.replay`); it would have to go below
zero if something was given back that was not read, and it never does.

A character that is given back makes another source than the one it was
read from: it is ready now, and may have been decoded before. The two
cannot be told apart by requests (`alike_unread`), so a run over a lexeme
comes to a number of reads, and so does a whole run of requests. What a
source gives is stated by its answers and not by its parts, so it does
not matter whether a failure or the end was met.
-/
import LayeredLexer.Proofs.Lexer.CutShort
import LayeredLexer.Proofs.Source.Arrival

namespace LayeredLexer

-- ================================================================= sources

/-- The character that a read has found. -/
def foundChar : Except SourceError (Option Char) → Option Char
  | .ok found => found
  | .error _ => none

namespace CharSource

/-- The source after requests. -/
def after (source : CharSource) : List SourceRequest → CharSource
  | [] => source
  | .read :: rest => source.next.2.after rest
  | .unread c :: rest => (source.unread c).after rest

/-- The characters that the reads among requests find. -/
def charsRead (source : CharSource) (requests : List SourceRequest) : List Char :=
  (source.answers requests).filterMap foundChar

/-- The characters that the first reads find. -/
def chars (source : CharSource) (n : Nat) : List Char := source.charsRead (.replicate n .read)

/-- The source after its first reads. -/
def skip (source : CharSource) (n : Nat) : CharSource := source.after (.replicate n .read)

variable {source rest : CharSource}

theorem answers_append (source : CharSource) (front back : List SourceRequest) :
    source.answers (front ++ back) = source.answers front ++ (source.after front).answers back := by
  induction front generalizing source with
  | nil => rfl
  | cons request front ih =>
      cases request with
      | read => exact congrArg (source.next.1 :: ·) (ih source.next.2)
      | unread c => exact ih (source.unread c)

theorem after_append (source : CharSource) (front back : List SourceRequest) :
    source.after (front ++ back) = (source.after front).after back := by
  induction front generalizing source with
  | nil => rfl
  | cons request front ih =>
      cases request with
      | read => exact ih source.next.2
      | unread c => exact ih (source.unread c)

theorem charsRead_read (source : CharSource) (requests : List SourceRequest) :
    source.charsRead (.read :: requests)
      = (foundChar source.next.1).toList ++ source.next.2.charsRead requests := by
  show (source.next.1 :: _).filterMap foundChar = _
  rw [List.filterMap_cons]
  cases foundChar source.next.1 <;> rfl

theorem chars_succ (source : CharSource) (n : Nat) :
    source.chars (n + 1) = (foundChar source.next.1).toList ++ source.next.2.chars n :=
  source.charsRead_read _

theorem chars_add (source : CharSource) (n m : Nat) :
    source.chars (n + m) = source.chars n ++ (source.skip n).chars m := by
  unfold chars charsRead
  rw [List.replicate_add, answers_append, List.filterMap_append]
  rfl

theorem skip_add (source : CharSource) (n m : Nat) :
    source.skip (n + m) = (source.skip n).skip m := by
  unfold skip
  rw [List.replicate_add, after_append]

-- =================================================================== alike

/-- Whatever is asked of two sources, they answer the same. -/
def Alike (a b : CharSource) : Prop := ∀ requests, a.answers requests = b.answers requests

variable {a b c : CharSource}

theorem Alike.refl (a : CharSource) : a.Alike a := fun _ => rfl

theorem Alike.trans (hab : a.Alike b) (hbc : b.Alike c) : a.Alike c :=
  fun requests => (hab requests).trans (hbc requests)

/-- Sources that are alike are alike after the same requests. -/
theorem Alike.after (h : a.Alike b) (requests : List SourceRequest) :
    (a.after requests).Alike (b.after requests) := by
  intro more
  have hall := h (requests ++ more)
  rw [answers_append, answers_append, h requests] at hall
  exact List.append_cancel_left hall

theorem Alike.chars (h : a.Alike b) (n : Nat) : a.chars n = b.chars n := by
  unfold CharSource.chars charsRead
  rw [h]

/-- Sources whose next reads are the same cannot be told apart, also not by
what is given back to them. -/
theorem alike_of_next (h : a.next = b.next) : a.Alike b := by
  -- What was given back stands in front of what both have ready, so the
  -- induction is for any such front.
  suffices hbehind : ∀ requests back,
      CharSource.answers { a with ready := back ++ a.ready } requests
        = CharSource.answers { b with ready := back ++ b.ready } requests from
    fun requests => hbehind requests []
  intro requests
  induction requests with
  | nil => exact fun back => rfl
  | cons request requests ih =>
      intro back
      cases request with
      | unread c => exact ih (c :: back)
      | read =>
          cases back with
          | cons c back => exact congrArg (.ok (some c) :: ·) (ih back)
          | nil =>
              show a.next.1 :: a.next.2.answers requests = b.next.1 :: b.next.2.answers requests
              rw [h]

/-- A character that is given back is the next one, as it was before. -/
theorem alike_unread {c : Char} (h : source.next = (.ok (some c), rest)) :
    (rest.unread c).Alike source :=
  alike_of_next h.symm

-- ================================================================== replay

/-- Requests to a source, with an offset that counts each character that
is read, and takes one off for each that is given back; none if there is
nothing to take off. -/
def replay (source : CharSource) (offset : Nat) : List SourceRequest → Option (Nat × CharSource)
  | [] => some (offset, source)
  | .read :: rest => source.next.2.replay (offset + (foundChar source.next.1).toList.length) rest
  | .unread c :: rest => if offset = 0 then none else (source.unread c).replay (offset - 1) rest

theorem replay_char {c : Char} (h : source.next = (.ok (some c), rest)) (offset : Nat)
    (more : List SourceRequest) :
    source.replay offset (.read :: more) = rest.replay (offset + 1) more := by
  rw [replay, h]
  rfl

theorem replay_nothing (h : foundChar source.next.1 = none) (offset : Nat)
    (more : List SourceRequest) :
    source.replay offset (.read :: more) = source.next.2.replay offset more := by
  rw [replay, h]
  rfl

/-- What is read and given back at once leaves the offset as it was. -/
theorem replay_unread {c : Char} (h : source.next = (.ok (some c), rest)) (offset : Nat) :
    source.replay offset [.read, .unread c] = some (offset, rest.unread c) := by
  rw [replay_char h, replay, if_neg (Nat.succ_ne_zero offset)]
  rfl

theorem replay_append (source : CharSource) (offset : Nat) (front back : List SourceRequest) :
    source.replay offset (front ++ back)
      = (source.replay offset front).bind fun reached => reached.2.replay reached.1 back := by
  induction front generalizing source offset with
  | nil => rfl
  | cons request front ih =>
      cases request with
      | read => exact ih _ _
      | unread c =>
          rw [List.cons_append, replay, replay]
          split
          · rfl
          · exact ih _ _

end CharSource

/-- The number of characters that are given back. -/
def unreads : List SourceRequest → Nat
  | [] => 0
  | .read :: rest => unreads rest
  | .unread _ :: rest => unreads rest + 1

/-- The offset is the number of characters that were read less those that
were given back. -/
theorem CharSource.replay_counts {source last : CharSource} {offset reached : Nat}
    {requests : List SourceRequest} (h : source.replay offset requests = some (reached, last)) :
    last = source.after requests
      ∧ reached + unreads requests = offset + (source.charsRead requests).length := by
  induction requests generalizing source offset with
  | nil =>
      cases h
      exact ⟨rfl, rfl⟩
  | cons request rest ih =>
      cases request with
      | read =>
          obtain ⟨hlast, hcount⟩ := ih h
          rw [charsRead_read, List.length_append]
          exact ⟨hlast, by rw [unreads]; omega⟩
      | unread c =>
          rw [replay] at h
          split at h
          · cases h
          next hpositive =>
            obtain ⟨hlast, hcount⟩ := ih h
            have hchars : source.charsRead (.unread c :: rest) = (source.unread c).charsRead rest :=
              rfl
            rw [hchars]
            exact ⟨hlast, by rw [unreads]; omega⟩

-- ============================================================== one lexeme

namespace Phase

variable {source rest : CharSource} {phase : Phase} {c : Char}

/-- What a run asks of its source. -/
def asks (phase : Phase) (source : CharSource) : List SourceRequest :=
  match _hnext : source.next with
  | (.error _, _) | (.ok none, _) => [.read]
  | (.ok (some c), rest) =>
    match phase.move c with
    | .extend next => .read :: next.asks rest
    | .close _ => [.read]
    | .stop _ => [.read, .unread c]
termination_by source.size
decreasing_by exact CharSource.size_lt_of_next _hnext

theorem asks_char (h : source.next = (.ok (some c), rest)) :
    phase.asks source = match phase.move c with
      | .extend next => .read :: next.asks rest
      | .close _ => [.read]
      | .stop _ => [.read, .unread c] := by
  rw [asks]
  split <;> simp_all

theorem asks_nothing (h : foundChar source.next.1 = none) : phase.asks source = [.read] := by
  rw [asks]
  split <;> simp_all [foundChar]

end Phase

/-- A run that began with a text has come through a number of reads: their
characters are behind the text, the source that is left is the one behind
them, and there the offset comes to that follows what was asked. -/
structure Reach.Through (reach : Reach) (text : String) (source : CharSource)
    (asked : List SourceRequest) (n : Nat) : Prop where
  text : reach.text.toList = text.toList ++ source.chars n
  left : reach.source.Alike (source.skip n)
  replay : ∀ offset, source.replay offset asked
    = some (offset + (source.chars n).length, reach.source)

/-- A read that finds no character ends a run. -/
theorem Reach.Through.nothing {source : CharSource} (h : foundChar source.next.1 = none)
    (text : String) (stop : Stop) :
    Reach.Through ⟨text, stop, source.next.2⟩ text source [.read] 1 := by
  have hchars : source.chars 1 = [] := by
    rw [CharSource.chars_succ, h]
    rfl
  refine ⟨?_, .refl _, fun offset => ?_⟩
  · rw [hchars, List.append_nil]
  · rw [CharSource.replay_nothing h, hchars]
    rfl

theorem Phase.run_through (phase : Phase) (text : String) (source : CharSource) :
    ∃ n, (phase.run text source).Through text source (phase.asks source) n := by
  fun_induction Phase.run phase text source with
  | case1 phase text source cause rest hnext =>
      have hnothing : foundChar source.next.1 = none := by rw [hnext]; rfl
      obtain rfl : source.next.2 = rest := by rw [hnext]
      rw [asks_nothing hnothing]
      exact ⟨1, .nothing hnothing text _⟩
  | case2 phase text source rest hnext =>
      have hnothing : foundChar source.next.1 = none := by rw [hnext]; rfl
      obtain rfl : source.next.2 = rest := by rw [hnext]
      rw [asks_nothing hnothing]
      exact ⟨1, .nothing hnothing text _⟩
  | case3 phase text source c rest hnext next hmove ih =>
      obtain ⟨n, htext, hsource, hreplay⟩ := ih
      have hchars : source.chars (n + 1) = c :: rest.chars n := by
        rw [CharSource.chars_succ, hnext]
        rfl
      have hskip : source.skip (n + 1) = rest.skip n := by
        show source.next.2.skip n = _
        rw [hnext]
      refine ⟨n + 1, ?_, hskip ▸ hsource, fun offset => ?_⟩
      · rw [htext, String.toList_push, hchars, List.append_assoc]
        rfl
      · rw [asks_char hnext, hmove, CharSource.replay_char hnext, hreplay, hchars, List.length_cons,
          Nat.add_assoc, Nat.add_comm 1]
  | case4 phase text source c rest hnext kind hmove =>
      have hchars : source.chars 1 = [c] := by
        rw [CharSource.chars_succ, hnext]
        rfl
      have hskip : source.skip 1 = rest := congrArg Prod.snd hnext
      refine ⟨1, ?_, hskip ▸ .refl rest, fun offset => ?_⟩
      · rw [String.toList_push, hchars]
      · rw [asks_char hnext, hmove, CharSource.replay_char hnext, hchars]
        rfl
  | case5 phase text source c rest hnext kind hmove =>
      refine ⟨0, (List.append_nil _).symm, CharSource.alike_unread hnext, fun offset => ?_⟩
      rw [asks_char hnext, hmove]
      exact CharSource.replay_unread hnext offset

/-- A run that ends in the fresh phase has read nothing. -/
theorem Phase.text_of_ended_fresh {phase : Phase} {text : String} {source : CharSource}
    (h : (phase.run text source).stop = .ended .fresh) :
    phase = .fresh ∧ (phase.run text source).text = text := by
  fun_induction Phase.run phase text source with
  | case1 | case4 | case5 => cases h
  | case2 phase text source rest hnext =>
      cases h
      exact ⟨rfl, rfl⟩
  | case3 phase text source c rest hnext next hmove ih =>
      obtain ⟨rfl, -⟩ := ih h
      exact absurd hmove (phase.move_ne_fresh c)

-- ============================================================ the tokenizer

namespace Tokenizer

variable {source : CharSource} {t : Tokenizer} {n : Nat}

/-- A lex step takes over the source and the characters of its run, and
holds nothing else. -/
theorem lex_reach (t : Tokenizer) :
    t.lex.source = (Phase.fresh.run "" t.source).source
      ∧ t.lex.offset = t.offset + (Phase.fresh.run "" t.source).text.length
      ∧ ∀ token, t.lex.front = .held token →
          token.offset = t.offset ∧ token.text = (Phase.fresh.run "" t.source).text := by
  -- At the end of the input no token is held, and no text is lost with it.
  have hfresh := @Phase.text_of_ended_fresh .fresh "" t.source
  unfold lex
  generalize Phase.fresh.run "" t.source = reach at hfresh ⊢
  dsimp only
  split
  next kind hstop =>
    refine ⟨rfl, rfl, ?_⟩
    rintro _ ⟨⟩
    exact ⟨rfl, rfl⟩
  next hstop =>
    refine ⟨rfl, ?_, ?_⟩
    · rw [(hfresh hstop).2]
      rfl
    · rintro _ ⟨⟩
  next phase hne hstop =>
    split
    · refine ⟨rfl, rfl, ?_⟩
      rintro _ ⟨⟩
      exact ⟨rfl, rfl⟩
    · refine ⟨rfl, rfl, ?_⟩
      rintro _ ⟨⟩
  next phase cause hstop =>
    split
    · refine ⟨rfl, rfl, ?_⟩
      rintro _ ⟨⟩
      exact ⟨rfl, rfl⟩
    · refine ⟨rfl, rfl, ?_⟩
      rintro _ ⟨⟩

/-- A tokenizer over a source has come through a number of reads: the
offset counts their characters, the source that it has is the one behind
them, and a token that is held is the end of their characters. -/
structure Through (source : CharSource) (n : Nat) (t : Tokenizer) : Prop where
  offset : (source.chars n).length = t.offset
  left : t.source.Alike (source.skip n)
  held : ∀ token, t.front = .held token →
    token.offset ≤ t.offset ∧ token.text.toList = (source.chars n).drop token.offset

theorem through_ofSource (source : CharSource) : (ofSource source).Through source 0 where
  offset := rfl
  left := .refl source
  held := by
    rintro token ⟨⟩

/-- A lex step goes through some more. -/
theorem Through.lex (h : t.Through source n) : ∃ m, t.lex.Through source m := by
  obtain ⟨k, htext, halike, -⟩ := Phase.fresh.run_through "" t.source
  obtain ⟨hsource, hoffset, hheld⟩ := t.lex_reach
  have hchars : source.chars (n + k)
      = source.chars n ++ (Phase.fresh.run "" t.source).text.toList := by
    rw [CharSource.chars_add, htext, h.left.chars]
    rfl
  refine ⟨n + k, ?_, ?_, fun token htoken => ?_⟩
  · rw [hchars, List.length_append, h.offset, hoffset, String.length_toList]
  · rw [hsource, CharSource.skip_add]
    exact halike.trans (h.left.after _)
  · obtain ⟨hstart, hsame⟩ := hheld token htoken
    rw [hstart, hsame, hoffset, hchars, ← h.offset, List.drop_left]
    exact ⟨Nat.le_add_right _ _, rfl⟩

/-- A failure that waited comes in front without a read. -/
theorem Through.advance (h : t.Through source n) : ∃ m, t.advance.Through source m := by
  unfold Tokenizer.advance
  split
  · exact ⟨n, h.offset, h.left, by rintro token ⟨⟩⟩
  · exact h.lex

theorem Through.peek (h : t.Through source n) : ∃ m, t.peek.2.1.Through source m := by
  unfold Tokenizer.peek
  split
  · exact h.advance
  · exact ⟨n, h⟩

theorem Through.drop (h : t.Through source n) : t.drop.Through source n := by
  unfold Tokenizer.drop
  split
  · exact ⟨h.offset, h.left, by rintro token ⟨⟩⟩
  · exact h

/-- What a look asks of the source: a lexeme, if none is in front and no
failure waits. -/
def asks (t : Tokenizer) : List SourceRequest :=
  match t.front, t.deferred with
  | .unread, none => Phase.fresh.asks t.source
  | _, _ => []

/-- The offset follows the requests of a look. -/
theorem replay_peek (t : Tokenizer) :
    t.source.replay t.offset t.asks = some (t.peek.2.1.offset, t.peek.2.1.source) := by
  unfold peek asks advance
  cases t.front with
  | held | ended | failed => rfl
  | unread =>
      cases t.deferred with
      | some cause => rfl
      | none =>
          obtain ⟨k, htext, -, hreplay⟩ := Phase.fresh.run_through "" t.source
          obtain ⟨hsource, hoffset, -⟩ := t.lex_reach
          have hlength := congrArg List.length htext
          rw [List.length_append, String.length_toList] at hlength
          dsimp only
          rw [hreplay, hsource, hoffset, hlength]
          simp

theorem drop_source (t : Tokenizer) : t.drop.source = t.source ∧ t.drop.offset = t.offset := by
  unfold drop
  split <;> exact ⟨rfl, rfl⟩

end Tokenizer

-- ================================================================ the requests

namespace Stream

/-- A request to a tokenizer is a look, and may take what it shows. -/
theorem serve_tokenizer (t : Tokenizer) (request : Request) :
    (tokenizer t).serve request = tokenizer t.peek.2.1
      ∨ (tokenizer t).serve request = tokenizer t.peek.2.1.drop := by
  cases request with
  | peek | hasMore => exact .inl rfl
  | consume => exact (tokenizer t).consume_stream

/-- What a run of requests to a tokenizer asks of its source. -/
def asks : Stream → List Request → List SourceRequest
  | .tokenizer t, request :: rest => t.asks ++ ((tokenizer t).serve request).asks rest
  | _, _ => []

/-- Any requests leave a tokenizer that has come through a number of reads,
and the offset has followed them. -/
theorem serveAll_through {source : CharSource} {t : Tokenizer} {n : Nat}
    (h : t.Through source n) (requests : List Request) :
    ∃ last m, (tokenizer t).serveAll requests = tokenizer last ∧ last.Through source m
      ∧ t.source.replay t.offset ((tokenizer t).asks requests)
        = some (last.offset, last.source) := by
  induction requests generalizing t n with
  | nil => exact ⟨t, n, rfl, h, rfl⟩
  | cons request rest ih =>
      obtain ⟨k, hpeek⟩ := h.peek
      have hnext : ∃ next, (tokenizer t).serve request = tokenizer next ∧ next.Through source k
          ∧ next.source = t.peek.2.1.source ∧ next.offset = t.peek.2.1.offset := by
        obtain hserve | hserve := serve_tokenizer t request
        · exact ⟨_, hserve, hpeek, rfl, rfl⟩
        · exact ⟨_, hserve, hpeek.drop, t.peek.2.1.drop_source⟩
      obtain ⟨next, hserve, hthrough, hsource, hoffset⟩ := hnext
      obtain ⟨last, m, hlast, hend, hreplay⟩ := ih hthrough
      refine ⟨last, m, ?_, hend, ?_⟩
      · rw [serveAll, List.foldl_cons, hserve]
        exact hlast
      · rw [asks, hserve, CharSource.replay_append, t.replay_peek, Option.bind_some, ← hsource,
          ← hoffset]
        exact hreplay

/-- Whatever is asked of a tokenizer over a source, its offset follows what
it asks of the source, and nothing is given back that was not read: the
offset is the number of the characters that were read less those that
were given back. A token that is held is the text from where it starts to
the offset. And the source that is left goes on, to all requests, as the
first one does behind some number of reads, the characters of which come
up to the offset. -/
theorem offset_handOver (source : CharSource) (requests : List Request) :
    ∃ t n, (ofSource source).serveAll requests = tokenizer t
      ∧ source.replay 0 ((ofSource source).asks requests) = some (t.offset, t.source)
      ∧ t.offset + unreads ((ofSource source).asks requests)
        = (source.charsRead ((ofSource source).asks requests)).length
      ∧ (source.chars n).length = t.offset
      ∧ (∀ token, t.front = .held token →
        token.offset ≤ t.offset ∧ token.text.toList = (source.chars n).drop token.offset)
      ∧ (∀ more, (source.chars (n + more)).drop t.offset = t.source.chars more)
      ∧ ∀ more, t.source.answers more = (source.skip n).answers more := by
  obtain ⟨t, n, hrun, hthrough, hreplay⟩ :=
    serveAll_through (Tokenizer.through_ofSource source) requests
  have hreplay : source.replay 0 ((ofSource source).asks requests) = some (t.offset, t.source) :=
    hreplay
  obtain ⟨-, hcount⟩ := CharSource.replay_counts hreplay
  refine ⟨t, n, hrun, hreplay, by rw [hcount, Nat.zero_add], hthrough.offset, hthrough.held,
    fun more => ?_, hthrough.left⟩
  rw [CharSource.chars_add, ← hthrough.offset, List.drop_left, hthrough.left.chars]

end Stream

end LayeredLexer
