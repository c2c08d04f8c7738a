/-
Well-nested words, and the stack that accepts them. A word of delimiters
is well nested if the grammar

  S = empty | ( S ) S | [ S ] S | { S } S

generates it. The check of a balance layer reads such a word from left to
right and knows only which delimiters are open; it goes through a word
without an error and with nothing left open exactly if the grammar has
the word (`clean_iff`).

# What is left to close

With delimiters open, the rest of a word that goes through is not a word
of the grammar but several, with the closers of the open delimiters
between them. `Closes` says so by recursion on what is open, and it moves
with the check: an opener in front adds one to close, a closer settles
the innermost one. The induction is on the word, for any open delimiters
at once.
-/
import LayeredLexer.Stream.Nesting

namespace LayeredLexer

-- =========================================================== the grammar

/-- The words of the grammar. -/
inductive WellNested : List Char → Prop
  | empty : WellNested []
  | group (bracket : Bracket) {inner rest : List Char} (hinner : WellNested inner)
      (hrest : WellNested rest) :
      WellNested (bracket.opener :: inner ++ bracket.closer :: rest)

/-- The characters that the grammar is about. -/
def delimiters : List Char := ['(', ')', '[', ']', '\x7b', '\x7d']

-- ============================================================ delimiters

namespace Bracket

theorem ofOpener?_opener (b : Bracket) : ofOpener? b.opener = some b := by
  cases b <;> rfl

theorem ofOpener?_closer (b : Bracket) : ofOpener? b.closer = none := by
  cases b <;> rfl

theorem ofCloser?_closer (b : Bracket) : ofCloser? b.closer = some b := by
  cases b <;> rfl

theorem opener_ne_closer (b b' : Bracket) : b.opener ≠ b'.closer := by
  cases b <;> cases b' <;> decide

theorem opener_injective {b b' : Bracket} (h : b.opener = b'.opener) : b = b' := by
  have hread := ofOpener?_opener b
  rw [h, ofOpener?_opener] at hread
  exact (Option.some.inj hread).symm

theorem closer_injective {b b' : Bracket} (h : b.closer = b'.closer) : b = b' := by
  have hread := ofCloser?_closer b
  rw [h, ofCloser?_closer] at hread
  exact (Option.some.inj hread).symm

/-- A delimiter opens or closes a bracket. -/
theorem of_mem_delimiters {c : Char} (h : c ∈ delimiters) :
    ∃ b : Bracket, c = b.opener ∨ c = b.closer := by
  unfold delimiters at h
  simp only [List.mem_cons, List.not_mem_nil, or_false] at h
  rcases h with rfl | rfl | rfl | rfl | rfl | rfl
  · exact ⟨round, .inl rfl⟩
  · exact ⟨round, .inr rfl⟩
  · exact ⟨square, .inl rfl⟩
  · exact ⟨square, .inr rfl⟩
  · exact ⟨curly, .inl rfl⟩
  · exact ⟨curly, .inr rfl⟩

/-- Other characters do neither. -/
theorem of_not_mem_delimiters {c : Char} (h : c ∉ delimiters) :
    ofOpener? c = none ∧ ofCloser? c = none := by
  unfold delimiters at h
  simp only [List.mem_cons, List.not_mem_nil, or_false, not_or] at h
  obtain ⟨h1, h2, h3, h4, h5, h6⟩ := h
  constructor
  · rw [ofOpener?, if_neg (show c ≠ round.opener from h1), if_neg (show c ≠ square.opener from h3),
      if_neg (show c ≠ curly.opener from h5)]
  · rw [ofCloser?, if_neg (show c ≠ round.closer from h2), if_neg (show c ≠ square.closer from h4),
      if_neg (show c ≠ curly.closer from h6)]

end Bracket

-- ============================================================= the check

namespace Nesting

variable (opened : List Bracket) (b : Bracket) (offset : Nat)

theorem check_opener : check opened b.opener offset = (b :: opened, none) := by
  rw [check, b.ofOpener?_opener]

theorem check_closer_nil :
    check [] b.closer offset = ([], some (.unexpectedCloser b.closer offset)) := by
  rw [check, b.ofOpener?_closer, b.ofCloser?_closer]

theorem check_closer_cons (innermost : Bracket) :
    check (innermost :: opened) b.closer offset
      = if innermost = b then (opened, none)
        else (opened, some (.mismatchedCloser innermost.closer b.closer offset)) := by
  rw [check, b.ofOpener?_closer, b.ofCloser?_closer]

theorem check_other {c : Char} (h : c ∉ delimiters) : check opened c offset = (opened, none) := by
  obtain ⟨hopener, hcloser⟩ := Bracket.of_not_mem_delimiters h
  rw [check, hopener, hcloser]

/-- The delimiters that are open behind a word, and the number of errors
that it raises. -/
def survey (opened : List Bracket) : List Char → List Bracket × Nat
  | [] => (opened, 0)
  | c :: word =>
    let (next, error) := check opened c 0
    let (last, errors) := survey next word
    (last, error.toList.length + errors)

theorem survey_cons (c : Char) (word : List Char) :
    survey opened (c :: word)
      = ((survey (check opened c 0).1 word).1,
          (check opened c 0).2.toList.length + (survey (check opened c 0).1 word).2) := rfl

/-- Characters that are no delimiters do not count. -/
theorem survey_filter (word : List Char) :
    survey opened (word.filter (· ∈ delimiters)) = survey opened word := by
  induction word generalizing opened with
  | nil => rfl
  | cons c word ih =>
      by_cases hc : c ∈ delimiters
      · rw [List.filter_cons_of_pos (by simpa using hc), survey_cons, survey_cons, ih]
      · rw [List.filter_cons_of_neg (by simpa using hc), ih, survey_cons,
          check_other opened 0 hc]
        show survey opened word = (_, 0 + _)
        rw [Nat.zero_add]

end Nesting

-- ========================================================= left to close

/-- Whether a word closes what is open, with well-nested words before and
behind each closer. -/
def Closes : List Bracket → List Char → Prop
  | [], word => WellNested word
  | b :: outer, word =>
      ∃ inner rest, word = inner ++ b.closer :: rest ∧ WellNested inner ∧ Closes outer rest

/-- A well-nested word is empty or begins with a group. -/
theorem WellNested.eq_nil_or_group {word : List Char} (h : WellNested word) :
    word = [] ∨ ∃ b inner rest, word = Bracket.opener b :: inner ++ b.closer :: rest
      ∧ WellNested inner ∧ WellNested rest := by
  cases h with
  | empty => exact .inl rfl
  | group b hinner hrest => exact .inr ⟨b, _, _, rfl, hinner, hrest⟩

/-- A group in front changes nothing of what a word closes. -/
theorem Closes.group {opened : List Bracket} {inner rest : List Char} (b : Bracket)
    (hinner : WellNested inner) (hrest : Closes opened rest) :
    Closes opened (b.opener :: inner ++ b.closer :: rest) := by
  cases opened with
  | nil => exact WellNested.group b hinner hrest
  | cons b' outer =>
      obtain ⟨inner', rest', rfl, hinner', hrest'⟩ := hrest
      refine ⟨b.opener :: inner ++ b.closer :: inner', rest', ?_, WellNested.group b hinner hinner',
        hrest'⟩
      simp

/-- An opener in front is one more to close. -/
theorem closes_opener_iff {opened : List Bracket} {b : Bracket} {word : List Char} :
    Closes opened (b.opener :: word) ↔ Closes (b :: opened) word := by
  constructor
  · intro h
    cases opened with
    | nil =>
        rcases WellNested.eq_nil_or_group h with hnil | ⟨b', inner, rest, heq, hinner, hrest⟩
        · cases hnil
        · obtain ⟨hopener, hword⟩ := List.cons.inj heq
          cases Bracket.opener_injective hopener
          exact ⟨inner, rest, hword, hinner, hrest⟩
    | cons innermost outer =>
        obtain ⟨inner', rest', heq, hinner', hrest'⟩ := h
        rcases hinner'.eq_nil_or_group with rfl | ⟨b', inner, rest, rfl, hinner, hrest⟩
        · exact absurd (List.cons.inj heq).1 (b.opener_ne_closer innermost)
        · rw [List.append_assoc, List.cons_append] at heq
          obtain ⟨hopener, hword⟩ := List.cons.inj heq
          cases Bracket.opener_injective hopener
          exact ⟨inner, rest ++ innermost.closer :: rest', hword, hinner, rest, rest', rfl, hrest,
            hrest'⟩
  · intro h
    obtain ⟨inner, rest, rfl, hinner, hrest⟩ := h
    exact hrest.group b hinner

/-- A closer in front settles the innermost opener, and no other. -/
theorem closes_closer_iff {opened : List Bracket} {b : Bracket} {word : List Char} :
    Closes opened (b.closer :: word) ↔ ∃ outer, opened = b :: outer ∧ Closes outer word := by
  constructor
  · intro h
    cases opened with
    | nil =>
        rcases WellNested.eq_nil_or_group h with hnil | ⟨b', inner, rest, heq, -⟩
        · cases hnil
        · exact absurd (List.cons.inj heq).1.symm (b'.opener_ne_closer b)
    | cons innermost outer =>
        obtain ⟨inner, rest, heq, hinner, hrest⟩ := h
        rcases hinner.eq_nil_or_group with rfl | ⟨b', inner', rest', rfl, -⟩
        · obtain ⟨hcloser, hword⟩ := List.cons.inj heq
          cases Bracket.closer_injective hcloser
          exact ⟨outer, rfl, hword ▸ hrest⟩
        · exact absurd (List.cons.inj heq).1.symm (b'.opener_ne_closer b)
  · intro h
    obtain ⟨outer, rfl, hrest⟩ := h
    exact ⟨[], word, rfl, .empty, hrest⟩

-- ================================================================ the iff

namespace Nesting

/-- The check goes through a word of delimiters, and leaves nothing open,
exactly if the word closes what was open before it. -/
theorem clean_iff_closes {word : List Char} (hword : ∀ c ∈ word, c ∈ delimiters)
    (opened : List Bracket) : survey opened word = ([], 0) ↔ Closes opened word := by
  induction word generalizing opened with
  | nil =>
      cases opened with
      | nil => exact ⟨fun _ => .empty, fun _ => rfl⟩
      | cons b outer =>
          constructor
          · intro h
            cases h
          · intro h
            obtain ⟨inner, rest, heq, -⟩ := h
            exact absurd heq.symm (List.append_ne_nil_of_right_ne_nil _ (List.cons_ne_nil _ _))
  | cons c word ih =>
      have ih := ih fun c hc => hword c (List.mem_cons_of_mem _ hc)
      obtain ⟨b, rfl | rfl⟩ := Bracket.of_mem_delimiters (hword c List.mem_cons_self)
      · rw [closes_opener_iff, ← ih, survey_cons, check_opener]
        simp [Prod.ext_iff]
      · rw [closes_closer_iff, survey_cons]
        cases opened with
        | nil =>
            rw [check_closer_nil]
            simp
        | cons innermost outer =>
            rw [check_closer_cons]
            by_cases hmatch : innermost = b
            · rw [if_pos hmatch, hmatch]
              simp [← ih, Prod.ext_iff]
            · rw [if_neg hmatch]
              simp [hmatch]

/-- With nothing open before it, a word goes through exactly if its
delimiters are well nested. -/
theorem clean_iff (word : List Char) :
    survey [] word = ([], 0) ↔ WellNested (word.filter (· ∈ delimiters)) := by
  rw [← survey_filter, clean_iff_closes]
  · rfl
  · intro c hc
    simpa using (List.mem_filter.1 hc).2

end Nesting

end LayeredLexer
