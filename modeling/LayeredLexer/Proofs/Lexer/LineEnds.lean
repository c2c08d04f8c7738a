/-
The line ends of a text, and the tokens that they lie in. The tokens of a
text tile it, so each character before the end of the last token lies in
exactly one of them (`Tiles.eq_of_covers`). A line end that lies in no
quote lies in a blank or a comment, because words and symbols have none
(`Reads.lineEnd_not_mem`). So the line ends that blanks and comments have
are those of the text that lie outside the quotes, and a count over tokens
and one over offsets come to the same (`lineEndsBefore_tokens`).

# Open constructs

Behind the last token there can be a quote or a comment that is never
closed. It is no token, and no token covers its characters
(`inOpen_ofText`). What is counted up to a place in it depends on whether
its line ends are left out.
-/
import LayeredLexer.Proofs.Lexer.Tiling
import Mathlib.Data.List.Induction

namespace LayeredLexer

-- ============================================================= the grammar

/-- The grammar reads off the front. -/
theorem Reads.isPrefix {rest text : List Char} {kind : Kind}
    (h : Reads rest (.token kind text)) : text <+: rest := by
  cases h with
  | line | block | quote => exact List.take_prefix _ _
  | lastLine => exact List.prefix_rfl
  | word front start parts =>
      rw [front]
      exact (List.prefix_cons_inj _).2 parts.starts
  | space front noStart blank blanks => exact blanks.starts
  | symbol front =>
      rw [front]
      exact (List.prefix_cons_inj _).2 List.nil_prefix

/-- Words and symbols have no line ends. -/
theorem Reads.lineEnd_not_mem {rest text : List Char} {kind : Kind}
    (h : Reads rest (.token kind text)) (hkind : kind = .word ∨ kind = .symbol) :
    '\n' ∉ text := by
  cases h with
  | line | lastLine | block | quote | space => rcases hkind with h | h <;> cases h
  | word front start parts =>
      intro hmem
      rcases List.mem_cons.1 hmem with rfl | hmem
      · revert start
        decide
      · have hpart := parts.holds _ hmem
        revert hpart
        decide
  | symbol front noLine noBlock noQuote noStart noBlank =>
      intro hmem
      obtain rfl := List.mem_singleton.1 hmem
      revert noBlank
      decide

/-- What is answered as a token is read as one. -/
theorem Lexeme.eq_of_answer_ok {x : Lexeme} {offset : Nat} {token : Token}
    (h : x.answer offset = .ok token) : x = .token token.kind token.text.toList := by
  cases x with
  | token kind text =>
      cases h
      rw [String.toList_ofList]
  | openComment | openQuote => cases h

/-- Every token of a text is what the grammar reads at its offset. -/
theorem Delivery.reads_at (offset : Nat) (cs : List Char) :
    ∀ token ∈ (ofText offset cs).tokens, offset ≤ token.offset
      ∧ Reads (cs.drop (token.offset - offset)) (.token token.kind token.text.toList) := by
  fun_induction ofText offset cs with
  | case1 offset => simp
  | case2 offset cs hmore s token hread ih =>
      intro other hother
      obtain ⟨hstart, -⟩ := Span.eq_of_answer_ok hread
      rcases List.mem_cons.1 hother with rfl | hother
      · rw [hstart, Nat.sub_self, List.drop_zero, reads_iff hmore]
        exact ⟨Nat.le_refl _, Lexeme.eq_of_answer_ok hread⟩
      · obtain ⟨hle, hreads⟩ := ih other hother
        have hleft : s.left = cs.drop s.taken.length := Phase.fresh.left_eq_drop cs
        rw [hleft, List.drop_drop] at hreads
        have hsame : s.taken.length + (other.offset - (offset + s.taken.length))
            = other.offset - offset := by
          omega
        rw [hsame] at hreads
        exact ⟨by omega, hreads⟩
  | case3 offset cs hmore s error hread => simp

-- ============================================================ the tiling

/-- Whether a character lies in a token, by its offset. -/
def Token.covers (token : Token) (i : Nat) : Bool :=
  decide (token.offset ≤ i) && decide (i < token.offset + token.text.length)

theorem Token.covers_iff {token : Token} {i : Nat} :
    token.covers i = true ↔ token.offset ≤ i ∧ i < token.offset + token.text.length := by
  rw [covers, Bool.and_eq_true, decide_eq_true_iff, decide_eq_true_iff]

namespace Tiles

variable {start stop : Nat} {tokens : List Token}

/-- A character lies in one token only. -/
theorem eq_of_covers (h : Tiles start tokens stop) {a b : Token} (ha : a ∈ tokens)
    (hb : b ∈ tokens) {i : Nat} (hai : a.covers i = true) (hbi : b.covers i = true) : a = b := by
  rw [Token.covers_iff] at hai hbi
  have hapart := List.pairwise_iff_getElem.1 h.pairwise
  obtain ⟨k, hk, rfl⟩ := List.getElem_of_mem ha
  obtain ⟨l, hl, rfl⟩ := List.getElem_of_mem hb
  rcases Nat.lt_trichotomy k l with hless | rfl | hmore
  · have hbehind := hapart k l hk hl hless
    omega
  · rfl
  · have hbehind := hapart l k hl hk hmore
    omega

end Tiles

-- ============================================================== line ends

/-- Whether a character lies in a quote. -/
def inQuote (tokens : List Token) (i : Nat) : Bool :=
  tokens.any fun token => token.kind == .quote && token.covers i

namespace Delivery

/-- Whether it lies behind the mark of a quote that is never closed. -/
def inOpenQuote (d : Delivery) (i : Nat) : Bool :=
  match d.last with
  | .failure (.unterminatedQuote start) => decide (start ≤ i)
  | _ => false

/-- Whether it lies behind the mark of a comment that is never closed. -/
def inOpenComment (d : Delivery) (i : Nat) : Bool :=
  match d.last with
  | .failure (.unterminatedComment start) => decide (start ≤ i)
  | _ => false

/-- Whether it lies in a quoted literal, closed or open. -/
def inLiteral (d : Delivery) (i : Nat) : Bool := inQuote d.tokens i || d.inOpenQuote i

end Delivery

/-- The number of line ends of a text before an offset, but for those at
places that are left out. -/
def lineEndsBefore (text : String) (offset : Nat) (leftOut : Nat → Bool) : Nat :=
  (List.range offset).countP fun i => text.toList[i]? == some '\n' && !leftOut i

/-- The number of line ends in the blanks and comments among tokens. -/
def triviaLineEnds (tokens : List Token) : Nat :=
  ((tokens.filter (·.isTrivia)).flatMap (·.text.toList)).count '\n'

theorem triviaLineEnds_append (front back : List Token) :
    triviaLineEnds (front ++ back) = triviaLineEnds front + triviaLineEnds back := by
  rw [triviaLineEnds, List.filter_append, List.flatMap_append, List.count_append]
  rfl

theorem triviaLineEnds_singleton (token : Token) :
    triviaLineEnds [token] = if token.isTrivia then token.newlines else 0 := by
  cases htrivia : token.isTrivia <;> simp [triviaLineEnds, htrivia, Token.newlines]

/-- Counting the places of a character is counting it. -/
theorem countP_range_eq_count (cs : List Char) (c : Char) (n : Nat) :
    (List.range n).countP (fun i => cs[i]? == some c) = (cs.take n).count c := by
  induction n with
  | zero => rfl
  | succ n ih =>
      rw [List.range_succ, List.countP_append, ih, List.take_add_one, List.count_append]
      congr 1
      cases hc : cs[n]? with
      | none => simp [hc]
      | some d => simp [hc, List.count_singleton]

variable {text : String} {leftOut : Nat → Bool}

/-- No more line ends are counted than there are. -/
theorem lineEndsBefore_le (offset : Nat) :
    lineEndsBefore text offset leftOut ≤ text.toList.count '\n' := by
  have hall : lineEndsBefore text offset leftOut
      ≤ (List.range offset).countP fun i => text.toList[i]? == some '\n' := by
    apply List.countP_mono_left
    intro i _ hi
    exact (Bool.and_eq_true_iff.1 hi).1
  rw [countP_range_eq_count] at hall
  exact hall.trans ((List.take_sublist _ _).count_le _)

/-- Only places that are not left out matter. -/
theorem lineEndsBefore_congr {other : Nat → Bool} {offset : Nat}
    (h : ∀ i < offset, leftOut i = other i) :
    lineEndsBefore text offset leftOut = lineEndsBefore text offset other := by
  refine List.countP_congr fun i hi => ?_
  rw [h i (List.mem_range.1 hi)]

/-- Line ends before an offset lie before a smaller one or behind it. -/
theorem lineEndsBefore_add (offset length : Nat) :
    lineEndsBefore text (offset + length) leftOut
      = lineEndsBefore text offset leftOut
        + (List.range length).countP fun i =>
            (text.toList.drop offset)[i]? == some '\n' && !leftOut (offset + i) := by
  rw [lineEndsBefore, List.range_add, List.countP_append, List.countP_map]
  congr 1
  refine List.countP_congr fun i _ => ?_
  rw [Function.comp_apply, List.getElem?_drop]

/-- Where all places are left out, nothing is counted. -/
theorem lineEndsBefore_skip {offset length : Nat}
    (h : ∀ i < length, leftOut (offset + i) = true) :
    lineEndsBefore text (offset + length) leftOut = lineEndsBefore text offset leftOut := by
  rw [lineEndsBefore_add, List.countP_eq_zero.2 ?_, Nat.add_zero]
  intro i hi
  rw [h i (List.mem_range.1 hi), Bool.not_true, Bool.and_false]
  exact Bool.false_ne_true

/-- Where none is, the characters are counted. -/
theorem lineEndsBefore_count {offset length : Nat}
    (h : ∀ i < length, leftOut (offset + i) = false) :
    lineEndsBefore text (offset + length) leftOut
      = lineEndsBefore text offset leftOut
        + ((text.toList.drop offset).take length).count '\n' := by
  rw [lineEndsBefore_add, ← countP_range_eq_count]
  congr 1
  refine List.countP_congr fun i hi => ?_
  rw [h i (List.mem_range.1 hi), Bool.not_false, Bool.and_true]

-- ======================================================== of one delivery

section OfText

variable {before after : List Token} {stop : Nat}

/-- In a tiling, a character lies in a quote exactly if the token that it
lies in is one. -/
theorem Tiles.inQuote_eq {tokens : List Token} {start : Nat} (h : Tiles start tokens stop)
    {token : Token} (htoken : token ∈ tokens) {i : Nat} (hcovers : token.covers i = true) :
    inQuote tokens i = (token.kind == .quote) := by
  rw [Bool.eq_iff_iff, inQuote, List.any_eq_true]
  constructor
  · rintro ⟨other, hother, hquote⟩
    obtain ⟨hkind, hothers⟩ := Bool.and_eq_true_iff.1 hquote
    rwa [h.eq_of_covers htoken hother hcovers hothers]
  · intro hkind
    exact ⟨token, htoken, Bool.and_eq_true_iff.2 ⟨hkind, hcovers⟩⟩

/-- The line ends of a text up to the end of a token are those up to its
offset, and those of the token if it is a blank or a comment. -/
theorem lineEndsBefore_token {tokens : List Token} {token : Token}
    (htiles : Tiles 0 tokens stop) (htoken : token ∈ tokens)
    (hreads : Reads (text.toList.drop token.offset) (.token token.kind token.text.toList)) :
    lineEndsBefore text (token.offset + token.text.length) (inQuote tokens)
      = lineEndsBefore text token.offset (inQuote tokens) + triviaLineEnds [token] := by
  have hinside : ∀ i < token.text.length,
      inQuote tokens (token.offset + i) = (token.kind == .quote) := by
    intro i hi
    exact htiles.inQuote_eq htoken (Token.covers_iff.2 (by omega))
  have hchars : (text.toList.drop token.offset).take token.text.length = token.text.toList := by
    rw [← String.length_toList]
    exact (List.prefix_iff_eq_take.1 hreads.isPrefix).symm
  rw [triviaLineEnds_singleton, Token.isTrivia]
  cases hkind : token.kind with
  | quote => exact lineEndsBefore_skip fun i hi => by rw [hinside i hi, hkind]; rfl
  | word | symbol =>
      have hnone := List.count_eq_zero.2 (hreads.lineEnd_not_mem (by simp [hkind]))
      rw [lineEndsBefore_count fun i hi => by rw [hinside i hi, hkind]; rfl, hchars, hnone]
      rfl
  | comment | space =>
      rw [lineEndsBefore_count fun i hi => by rw [hinside i hi, hkind]; rfl, hchars]
      rfl

/-- The line ends of a text outside its quotes, up to the end of one of
its tokens, are those of the blanks and comments up to there. -/
theorem lineEndsBefore_tokens (htokens : (Delivery.ofText 0 text.toList).tokens = before ++ after)
    (htiles : Tiles 0 before stop) :
    lineEndsBefore text stop (inQuote (before ++ after)) = triviaLineEnds before := by
  obtain ⟨last, hall, -⟩ := Delivery.ofText_tiles 0 text.toList
  -- one token after the other, with the others behind it
  induction before using List.reverseRecOn generalizing after stop with
  | nil =>
      obtain rfl : 0 = stop := htiles
      rfl
  | append_singleton before token ih =>
      obtain ⟨middle, hbefore, rfl, -, rfl⟩ := htiles.append
      have hmem : token ∈ (Delivery.ofText 0 text.toList).tokens := by
        rw [htokens]
        simp
      obtain ⟨-, hreads⟩ := Delivery.reads_at 0 text.toList token hmem
      have hone := lineEndsBefore_token hall hmem hreads
      rw [List.append_assoc] at htokens ⊢
      rw [htokens] at hone
      rw [hone, ih htokens hbefore, triviaLineEnds_append]

/-- What is never closed begins behind the last token. -/
theorem inOpen_ofText (htiles : Tiles 0 (Delivery.ofText 0 text.toList).tokens stop) (i : Nat)
    (hi : i < text.toList.length) :
    ((Delivery.ofText 0 text.toList).inOpenQuote i
      || (Delivery.ofText 0 text.toList).inOpenComment i) = decide (stop ≤ i) := by
  obtain ⟨last, hall, -, -, hlast⟩ := Delivery.ofText_tiles 0 text.toList
  obtain rfl := hall.stop_unique htiles
  unfold Delivery.inOpenQuote Delivery.inOpenComment
  rcases hlast with ⟨hend, hat⟩ | ⟨-, hquote | hcomment⟩
  · rw [hend, decide_eq_false (by omega)]
    rfl
  · rw [hquote]
    exact Bool.or_false _
  · rw [hcomment]
    exact Bool.false_or _

/-- So the line ends up to a place behind the last token are those outside
the quotes, if none of what is never closed counts. -/
theorem lineEndsBefore_open (htokens : (Delivery.ofText 0 text.toList).tokens = before ++ after)
    (htiles : Tiles 0 before stop) {offset : Nat}
    (hoffset : offset = stop ∨ after = [] ∧ stop ≤ offset ∧ offset ≤ text.toList.length) :
    lineEndsBefore text offset (fun i => (Delivery.ofText 0 text.toList).inLiteral i
        || (Delivery.ofText 0 text.toList).inOpenComment i)
      = triviaLineEnds before := by
  obtain ⟨last, hall, -, -, hlast⟩ := Delivery.ofText_tiles 0 text.toList
  have hlength : last ≤ text.toList.length := by omega
  have hstop : stop ≤ last := by
    rw [htokens] at hall
    obtain ⟨middle, hbefore, hafter⟩ := hall.append
    rw [htiles.stop_unique hbefore]
    exact hafter.le
  have hleftOut : ∀ i < text.toList.length,
      ((Delivery.ofText 0 text.toList).inLiteral i
        || (Delivery.ofText 0 text.toList).inOpenComment i)
      = (inQuote (before ++ after) i || decide (last ≤ i)) := by
    intro i hi
    rw [Delivery.inLiteral, Bool.or_assoc, inOpen_ofText hall i hi, htokens]
  have hfront : lineEndsBefore text stop (fun i => (Delivery.ofText 0 text.toList).inLiteral i
        || (Delivery.ofText 0 text.toList).inOpenComment i)
      = triviaLineEnds before := by
    rw [← lineEndsBefore_tokens htokens htiles]
    refine lineEndsBefore_congr fun i hi => ?_
    rw [hleftOut i (by omega), decide_eq_false (by omega), Bool.or_false]
  rcases hoffset with rfl | ⟨rfl, hle, hwithin⟩
  · exact hfront
  · obtain ⟨more, rfl⟩ := Nat.exists_eq_add_of_le hle
    rw [List.append_nil] at htokens
    obtain rfl := htiles.stop_unique (htokens ▸ hall)
    rw [lineEndsBefore_skip, hfront]
    intro i hi
    rw [hleftOut _ (by omega), decide_eq_true (by omega), Bool.or_true]

end OfText

end LayeredLexer
