/-
Names as the tokenizer sees them. The store takes a name apart at its
separators and looks at each part; the tokenizer reads the same text from
the left, with comments, quotes and one character of lookahead. Both come
to one answer: an identifier is one word, and a name is words with one
separator between each two of them.

# Parts and tokens

A part that is an identifier is a word wherever a separator or the end
stands behind it, since no separator belongs to a word
(`lexeme_identifier`). A separator with a word behind it is a symbol, also
if it is a slash, since what would make a comment of the slash starts no
word (`lexeme_separator`). So the parts and the tokens are compared from
the left, a part and a separator at a time: in one direction by induction
on the tokens (`identifiers_of_dotted`), in the other by induction on the
parts (`dotted_of_identifiers`).
-/
import LayeredLexer.Proofs.Lexer.Locality
import LayeredLexer.Proofs.Rule.Spelling

namespace LayeredLexer

/-- Words with one separator between each two of them. -/
inductive DottedWords : List Token → Prop
  | word {token : Token} (kind : token.kind = .word) : DottedWords [token]
  | more {token separator : Token} {rest : List Token} (kind : token.kind = .word)
      (symbol : separator.kind = .symbol) (mark : separator.text = "." ∨ separator.text = "/")
      (words : DottedWords rest) : DottedWords (token :: separator :: rest)

-- =========================================================== one lexeme

namespace Phase

/-- An identifier is a word if what stands behind it belongs to no word. -/
theorem lexeme_identifier {word left : List Char} (h : isIdentifier word = true)
    (hleft : ∀ c ∈ left.head?, isIdentifierPart c = false) :
    (fresh.span (word ++ left)).lexeme = .token .word word := by
  cases word with
  | nil => cases h
  | cons c run =>
      obtain ⟨hstart, hparts⟩ := Bool.and_eq_true_iff.1 h
      have hstop : left.takeWhile isIdentifierPart = [] := by
        cases left with
        | nil => rfl
        | cons d rest => rw [List.takeWhile_cons, hleft d rfl]; rfl
      rw [List.cons_append, span_extend (show fresh.move c = _ from start_word hstart),
        Span.lexeme_cons, lexeme_word, List.takeWhile_append_of_pos (List.all_eq_true.1 hparts),
        hstop, List.append_nil]
      rfl

/-- And a word is an identifier. -/
theorem isIdentifier_of_lexeme {cs word : List Char}
    (h : (fresh.span cs).lexeme = .token .word word) : isIdentifier word = true := by
  have hne : cs ≠ [] := by
    rintro rfl
    cases h
  cases (reads_iff hne _).2 h with
  | word front start parts => exact Bool.and_eq_true_iff.2 ⟨start, List.all_eq_true.2 parts.holds⟩

/-- A separator is a symbol if it opens no comment. -/
theorem lexeme_separator {c : Char} (h : Pattern.isSeparator c = true) {left : List Char}
    (hleft : ∀ d ∈ left.head?, d ≠ '/' ∧ d ≠ '*') :
    (fresh.span (c :: left)).lexeme = .token .symbol [c] := by
  rcases Bool.or_eq_true_iff.1 h with hc | hc
  · obtain rfl := eq_of_beq hc
    rw [span_close (show fresh.move '.' = .close .symbol by decide +kernel)]
    rfl
  · obtain rfl := eq_of_beq hc
    have hopens {d : Char} (hd : d = '/' ∨ d = '*') : ¬ ['/', d] <+: '/' :: left := by
      rintro ⟨rest, hrest⟩
      obtain rfl : d :: rest = left := (List.cons.inj hrest).2
      obtain ⟨hslash, hstar⟩ := hleft d rfl
      exact hd.elim hslash hstar
    exact lexeme_slash (hopens (.inl rfl)) (hopens (.inr rfl))

end Phase

-- ============================================================= deliveries

namespace Delivery

variable {offset : Nat} {cs : List Char} {last : LexError}

/-- A text that delivers a token begins with its characters, and what
stands behind them delivers the others. -/
theorem ofText_eq_cons {token : Token} {rest : List Token}
    (h : ofText offset cs = ⟨token :: rest, last⟩) :
    ∃ left, cs = token.text.toList ++ left ∧ token.text.toList ≠ []
      ∧ (Phase.fresh.span cs).lexeme = .token token.kind token.text.toList
      ∧ ofText (offset + token.text.length) left = ⟨rest, last⟩ := by
  rcases ofText_token_or_none offset cs with ⟨kind, taken, left, rfl, htaken, hread⟩ | hnone
  · rw [ofText_token offset htaken hread] at h
    obtain ⟨htokens, hlast⟩ := Delivery.mk.inj h
    obtain ⟨rfl, hrest⟩ := List.cons.inj htokens
    rw [String.toList_ofList, String.length_ofList]
    refine ⟨left, rfl, htaken, hread, ?_⟩
    rw [← hrest, ← hlast]
  · rw [h] at hnone
    cases hnone

/-- Only the empty text comes to its end without a token. -/
theorem eq_nil_of_ofText (h : ofText offset cs = ⟨[], .endOfInput⟩) : cs = [] := by
  obtain ⟨stop, htiles, -, -, hlast⟩ := ofText_tiles offset cs
  rw [h] at htiles hlast
  obtain rfl : offset = stop := htiles
  rcases hlast with ⟨-, hlength⟩ | ⟨-, hfailed | hfailed⟩
  · exact List.length_eq_zero_iff.1 (by omega)
  · cases hfailed
  · cases hfailed

/-- One identifier delivers one word. -/
theorem ofText_identifier (offset : Nat) (h : isIdentifier cs = true) :
    ofText offset cs = ⟨[⟨.word, String.ofList cs, offset⟩], .endOfInput⟩ := by
  have hread : (Phase.fresh.span (cs ++ [])).lexeme = .token .word cs :=
    Phase.lexeme_identifier h nofun
  have hdelivered := ofText_token offset (Pattern.ne_nil_of_isIdentifier h) hread
  rw [List.append_nil, ofText_nil] at hdelivered
  exact hdelivered

end Delivery

-- ================================================================= parts

namespace Pattern

/-- The first part of a text is the whole text, or a separator stands
behind it. -/
theorem splitOnP_eq_cons {cs part : List Char} {later : List (List Char)}
    (h : cs.splitOnP isSeparator = part :: later) :
    later = [] ∧ cs = part
      ∨ ∃ c left, isSeparator c = true ∧ cs = part ++ c :: left
        ∧ left.splitOnP isSeparator = later := by
  induction cs generalizing part with
  | nil =>
      cases h
      exact .inl ⟨rfl, rfl⟩
  | cons d rest ih =>
      rw [List.splitOnP_cons_eq_if_modifyHead] at h
      split at h
      next hseparator =>
        obtain ⟨rfl, hlater⟩ := List.cons.inj h
        exact .inr ⟨d, rest, hseparator, rfl, hlater⟩
      next hpart =>
        cases hrest : rest.splitOnP isSeparator with
        | nil => exact absurd hrest (List.splitOnP_ne_nil _ _)
        | cons first others =>
            rw [hrest] at h
            obtain ⟨rfl, rfl⟩ := List.cons.inj h
            rcases ih hrest with ⟨hnone, rfl⟩ | ⟨c, left, hseparator, rfl, hleft⟩
            · exact .inl ⟨hnone, rfl⟩
            · exact .inr ⟨c, left, hseparator, rfl, hleft⟩

/-- What an identifier begins with makes no comment of a slash. -/
theorem head_of_isIdentifier {part rest : List Char} (h : isIdentifier part = true) :
    ∀ d ∈ (part ++ rest).head?, d ≠ '/' ∧ d ≠ '*' := by
  cases part with
  | nil => cases h
  | cons c run =>
      obtain ⟨hstart, -⟩ := Bool.and_eq_true_iff.1 h
      intro d hd
      obtain rfl : c = d := Option.some.inj hd
      constructor
      · rintro rfl
        revert hstart
        decide +kernel
      · rintro rfl
        revert hstart
        decide +kernel

/-- If all parts of a text are identifiers, the text delivers words with
separators between them. -/
theorem dotted_of_identifiers (offset : Nat) {cs : List Char} {ps : List (List Char)}
    (hsplit : cs.splitOnP isSeparator = ps) (h : ∀ part ∈ ps, isIdentifier part = true) :
    DottedWords (Delivery.ofText offset cs).tokens
      ∧ (Delivery.ofText offset cs).last = .endOfInput := by
  induction ps generalizing offset cs with
  | nil => exact absurd hsplit (List.splitOnP_ne_nil _ _)
  | cons part later ih =>
      obtain ⟨hpart, hlater⟩ := List.forall_mem_cons.1 h
      rcases splitOnP_eq_cons hsplit with ⟨-, rfl⟩ | ⟨c, left, hseparator, rfl, hleft⟩
      · rw [Delivery.ofText_identifier offset hpart]
        exact ⟨.word rfl, rfl⟩
      · have hstop : ∀ d ∈ (c :: left).head?, isIdentifierPart d = false := fun d hd => by
          obtain rfl : c = d := Option.some.inj hd
          exact (separator_not_identifier hseparator).2
        have hword := Phase.lexeme_identifier hpart hstop
        have hhead : ∀ d ∈ left.head?, d ≠ '/' ∧ d ≠ '*' := by
          cases later with
          | nil => exact absurd hleft (List.splitOnP_ne_nil _ _)
          | cons next others =>
              have hnext := hlater next List.mem_cons_self
              rcases splitOnP_eq_cons hleft with ⟨-, rfl⟩ | ⟨_, _, -, rfl, -⟩
              · exact List.append_nil left ▸ head_of_isIdentifier hnext
              · exact head_of_isIdentifier hnext
        have hsymbol := Phase.lexeme_separator hseparator hhead
        obtain ⟨hwords, hend⟩ := ih (offset + part.length + 1) hleft hlater
        rw [Delivery.ofText_token offset (ne_nil_of_isIdentifier hpart) hword]
        have hrest := Delivery.ofText_token (offset + part.length) (List.cons_ne_nil c []) hsymbol
        rw [List.singleton_append] at hrest
        rw [hrest]
        have hmark : String.ofList [c] = "." ∨ String.ofList [c] = "/" := by
          rcases Bool.or_eq_true_iff.1 hseparator with hc | hc
          · exact .inl (congrArg (fun d => String.ofList [d]) (eq_of_beq hc))
          · exact .inr (congrArg (fun d => String.ofList [d]) (eq_of_beq hc))
        exact ⟨.more rfl rfl hmark hwords, hend⟩

/-- And if it delivers these and comes to its end, all of its parts are
identifiers. -/
theorem identifiers_of_dotted {offset : Nat} {cs : List Char} {tokens : List Token}
    (hwords : DottedWords tokens) (h : Delivery.ofText offset cs = ⟨tokens, .endOfInput⟩) :
    ∀ part ∈ cs.splitOnP isSeparator, isIdentifier part = true := by
  induction hwords generalizing offset cs with
  | @word token kind =>
      obtain ⟨left, hcs, -, hread, hrest⟩ := Delivery.ofText_eq_cons h
      rw [Delivery.eq_nil_of_ofText hrest, List.append_nil] at hcs
      rw [kind, ← hcs] at hread
      have hidentifier := Phase.isIdentifier_of_lexeme hread
      have hwhole := List.splitOnP_eq_singleton
        (not_isSeparator_of_isIdentifier hidentifier)
      rw [hwhole]
      exact List.forall_mem_singleton.2 hidentifier
  | @more token separator rest kind symbol mark words ih =>
      obtain ⟨behind, rfl, -, hread, hbehind⟩ := Delivery.ofText_eq_cons h
      obtain ⟨left, rfl, -, -, hleft⟩ := Delivery.ofText_eq_cons hbehind
      rw [kind] at hread
      have hidentifier := Phase.isIdentifier_of_lexeme hread
      obtain ⟨c, hc, hseparator⟩ :
          ∃ c, separator.text.toList = [c] ∧ isSeparator c = true := by
        rcases mark with hmark | hmark
        · exact ⟨'.', by rw [hmark]; rfl, rfl⟩
        · exact ⟨'/', by rw [hmark]; rfl, rfl⟩
      rw [hc, List.singleton_append, List.splitOnP_append_cons_of_forall_mem
        (not_isSeparator_of_isIdentifier hidentifier) c hseparator]
      exact List.forall_mem_cons.2 ⟨hidentifier, ih hleft⟩

/-- A text is a name exactly if it is within the limits and all of its
parts are identifiers. -/
theorem exists_name_iff (text : String) :
    (∃ p, name text = .ok p)
      ↔ WithinLimits text ∧ ∀ part ∈ split text, isIdentifier part = true := by
  constructor
  · rintro ⟨p, hp⟩
    obtain ⟨hparse, hplain⟩ := name_eq_ok_iff.1 hp
    refine ⟨withinLimits_of_parse hparse, fun part hpart => ?_⟩
    rw [← labels_of_parse hparse, labels, hplain] at hpart
    obtain ⟨s, hs, rfl⟩ := List.mem_map.1 (List.append_nil _ ▸ hpart)
    exact (wellFormed_of_parse hparse).identifiers s hs
  · rintro ⟨hlimits, hparts⟩
    have hlabels : labels ⟨(split text).map String.ofList, false⟩ = split text := by
      simp [labels, List.map_map]
    have hread := ofParts_labels text (p := ⟨(split text).map String.ofList, false⟩) <| by
      intro s hs
      obtain ⟨part, hpart, rfl⟩ := List.mem_map.1 hs
      rw [String.toList_ofList]
      exact hparts part hpart
    rw [hlabels, ← parse_of_withinLimits hlimits] at hread
    exact ⟨_, name_eq_ok_iff.2 ⟨hread, rfl⟩⟩

-- ======================================================== the main result

/-- The tokenizer and the rule store have one notion of a name. A text is
an identifier exactly if the tokenizer delivers it as one word and nothing
else. And it is a name exactly if it is within the limits, and the
tokenizer comes to its end and delivers words with one dot or slash between
each two of them. -/
theorem names_lexed (text : String) :
    let d := (Stream.ofSource (.ofString text)).delivered
    (isIdentifier text.toList = true
        ↔ ∃ token, d.tokens = [token] ∧ token.kind = .word ∧ token.text = text)
      ∧ ((∃ p, name text = .ok p)
        ↔ (text.length ≤ 1024 ∧ (split text).length ≤ 128)
          ∧ d.last = .endOfInput ∧ DottedWords d.tokens) := by
  dsimp only
  rw [Stream.delivered_ofString, exists_name_iff]
  refine ⟨⟨fun h => ?_, ?_⟩, ⟨?_, ?_⟩⟩
  · rw [Delivery.ofText_identifier 0 h, String.ofList_toList]
    exact ⟨_, rfl, rfl, rfl⟩
  · rintro ⟨token, htokens, hkind, rfl⟩
    have hdelivered : Delivery.ofText 0 token.text.toList
        = ⟨[token], (Delivery.ofText 0 token.text.toList).last⟩ := by
      rw [← htokens]
    obtain ⟨-, -, -, hread, -⟩ := Delivery.ofText_eq_cons hdelivered
    exact Phase.isIdentifier_of_lexeme (hkind ▸ hread)
  · rintro ⟨hlimits, hparts⟩
    obtain ⟨hwords, hend⟩ := dotted_of_identifiers 0 rfl hparts
    exact ⟨⟨hlimits.short, hlimits.few⟩, hend, hwords⟩
  · rintro ⟨⟨hshort, hfew⟩, hend, hwords⟩
    have hnonempty : 1 ≤ text.length := by
      rw [Nat.one_le_iff_ne_zero, ← String.length_toList]
      intro hnone
      rw [List.length_eq_zero_iff.1 hnone, Delivery.ofText_nil] at hwords
      cases hwords
    have hdelivered : Delivery.ofText 0 text.toList
        = ⟨(Delivery.ofText 0 text.toList).tokens, .endOfInput⟩ := by
      rw [← hend]
    exact ⟨⟨hnonempty, hshort, hfew⟩, identifiers_of_dotted hwords hdelivered⟩

/-- A slash may separate words, but a second one, or a star, makes a
comment of it. -/
example : (Stream.ofSource (.ofString "a/b")).delivered.tokens.map (·.kind)
      = [.word, .symbol, .word]
    ∧ (Stream.ofSource (.ofString "a//b")).delivered.tokens.map (·.kind) = [.word, .comment] := by
  decide +kernel

end Pattern

end LayeredLexer
