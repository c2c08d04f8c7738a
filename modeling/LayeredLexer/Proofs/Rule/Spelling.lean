/-
Which texts spell a pattern, which pattern that is, and why any other
text is refused. A text is taken apart at its separators, and each part
must be an identifier, except that the last one may be a star.

# Three kinds of parts

Of a part and those behind it one thing is true (`part_cases`): the part
is an identifier, it is a star with nothing behind it, or it offends in
one way. Reading goes on behind an identifier, ends well at such a star,
and ends at once at an offence. So what is read from all parts follows by
one induction on them, for the texts that are taken
(`exists_ofParts_iff`) as for those that are not
(`ofParts_eq_error_iff`).

# There and back

The labels of the pattern are the parts of the text, so its segments are
the identifiers among them (`segments_eq_filter`), and the parts joined by
dots are the text with its separators shown as dots (`display_of_parse`).
A pattern and the text with dots determine each other.
-/
import LayeredLexer.Proofs.Rule.Canonical

namespace LayeredLexer

namespace Pattern

-- ============================================================ vocabulary

/-- What stands between the dots and slashes of a text. -/
def split (text : String) : List (List Char) :=
  text.toList.splitOnP fun c => c == '.' || c == '/'

/-- A text that has characters, but not too many, nor too many parts. -/
structure WithinLimits (text : String) : Prop where
  nonempty : 1 ≤ text.length
  short : text.length ≤ 1024
  few : (split text).length ≤ 128

/-- Whether a part may stand before those in `after`: an identifier may,
and a star if there are none. -/
def Fits (part : List Char) (after : List (List Char)) : Prop :=
  isIdentifier part = true ∨ part = ['*'] ∧ after = []

/-- What is wrong with a part that does not fit. -/
inductive Offends (text : String) : List Char → List (List Char) → PatternError → Prop
  | star {after : List (List Char)} (h : after ≠ []) :
      Offends text ['*'] after (.misplacedWildcard text)
  | empty {after : List (List Char)} : Offends text [] after (.emptySegment text)
  | word {part : List Char} {after : List (List Char)} (notStar : part ≠ ['*'])
      (nonempty : part ≠ []) (h : isIdentifier part = false) :
      Offends text part after (.invalidSegment text (String.ofList part))

-- ============================================================== one part

variable {text : String} {part : List Char} {after : List (List Char)} {fault : PatternError}

theorem part_cases (text : String) (part : List Char) (after : List (List Char)) :
    isIdentifier part = true ∨ (part = ['*'] ∧ after = [])
      ∨ ∃ fault, Offends text part after fault := by
  by_cases hstar : part = ['*']
  · subst hstar
    by_cases hlast : after = []
    · exact .inr (.inl ⟨rfl, hlast⟩)
    · exact .inr (.inr ⟨_, .star hlast⟩)
  · by_cases hempty : part = []
    · subst hempty
      exact .inr (.inr ⟨_, .empty⟩)
    · cases hpart : isIdentifier part with
      | true => exact .inl rfl
      | false => exact .inr (.inr ⟨_, .word hstar hempty hpart⟩)

theorem Offends.not_fits (h : Offends text part after fault) : ¬ Fits part after := by
  intro hfits
  cases h with
  | star hsome =>
      rcases hfits with hidentifier | ⟨-, hlast⟩
      · exact ne_star_of_isIdentifier hidentifier rfl
      · exact hsome hlast
  | empty => rcases hfits with hidentifier | ⟨hstar, -⟩ <;> contradiction
  | word hstar _ hpart =>
      rcases hfits with hidentifier | ⟨hlone, -⟩
      · rw [hpart] at hidentifier
        cases hidentifier
      · exact hstar hlone

/-- Reading ends at once where a part offends. -/
theorem Offends.ofParts (h : Offends text part after fault) :
    ofParts text (part :: after) = .error fault := by
  cases h with
  | star hsome => rw [Pattern.ofParts, if_pos rfl, if_neg (by simpa using hsome)]
  | empty => rfl
  | word hstar hempty hpart =>
      rw [Pattern.ofParts, if_neg hstar, if_neg hempty, if_neg (by simp [hpart])]

-- ============================================================= all parts

variable {ps : List (List Char)}

/-- Every part fits where it stands. -/
def Regular (ps : List (List Char)) : Prop :=
  ∀ before part after, ps = before ++ part :: after → Fits part after

/-- The first part that does not fit, with what is wrong with it. -/
def FirstOffence (text : String) (ps : List (List Char)) (fault : PatternError) : Prop :=
  ∃ before part after, ps = before ++ part :: after
    ∧ (∀ earlier ∈ before, isIdentifier earlier = true) ∧ Offends text part after fault

theorem regular_cons : Regular (part :: after) ↔ Fits part after ∧ Regular after := by
  constructor
  · intro hregular
    refine ⟨hregular [] part after rfl, ?_⟩
    intro before later rest heq
    exact hregular (part :: before) later rest (by rw [heq]; rfl)
  · intro hboth before later rest heq
    obtain ⟨hfits, hregular⟩ := hboth
    cases before with
    | nil =>
        cases heq
        exact hfits
    | cons first before =>
        cases heq
        exact hregular before later rest rfl

theorem firstOffence_cons (h : isIdentifier part = true) :
    FirstOffence text (part :: after) fault ↔ FirstOffence text after fault := by
  constructor
  · intro hoffence
    obtain ⟨before, later, rest, heq, hearlier, hoffends⟩ := hoffence
    cases before with
    | nil =>
        cases heq
        exact absurd (.inl h) hoffends.not_fits
    | cons first before =>
        cases heq
        have hearlier := fun b hb => hearlier b (List.mem_cons_of_mem _ hb)
        exact ⟨before, later, rest, rfl, hearlier, hoffends⟩
  · intro hoffence
    obtain ⟨before, later, rest, rfl, hearlier, hoffends⟩ := hoffence
    exact ⟨part :: before, later, rest, rfl, List.forall_mem_cons.2 ⟨h, hearlier⟩, hoffends⟩

/-- A part that is no identifier is the only one that can offend first. -/
theorem firstOffence_head (h : isIdentifier part = false) :
    FirstOffence text (part :: after) fault ↔ Offends text part after fault := by
  constructor
  · intro hoffence
    obtain ⟨before, later, rest, heq, hearlier, hoffends⟩ := hoffence
    cases before with
    | nil =>
        cases heq
        exact hoffends
    | cons first before =>
        cases heq
        rw [hearlier part List.mem_cons_self] at h
        cases h
  · intro hoffends
    exact ⟨[], part, after, rfl, List.forall_mem_nil _, hoffends⟩

/-- Parts are read exactly if all of them fit. -/
theorem exists_ofParts_iff (text : String) (ps : List (List Char)) :
    (∃ p, ofParts text ps = .ok p) ↔ Regular ps := by
  induction ps with
  | nil =>
      constructor
      · intro _ before part after heq
        exact absurd heq (by simp)
      · exact fun _ => ⟨⟨[], false⟩, rfl⟩
  | cons part after ih =>
      rw [regular_cons, ← ih]
      rcases part_cases text part after with hpart | ⟨rfl, rfl⟩ | ⟨fault, hoffends⟩
      · rw [ofParts_identifier hpart]
        constructor
        · intro hread
          obtain ⟨p, hp⟩ := hread
          cases hrest : ofParts text after with
          | error fault =>
              rw [hrest] at hp
              cases hp
          | ok q => exact ⟨.inl hpart, q, rfl⟩
        · intro hread
          obtain ⟨-, q, hq⟩ := hread
          rw [hq]
          exact ⟨_, rfl⟩
      · exact ⟨fun _ => ⟨.inr ⟨rfl, rfl⟩, ⟨[], false⟩, rfl⟩, fun _ => ⟨⟨[], true⟩, rfl⟩⟩
      · rw [hoffends.ofParts]
        constructor
        · intro hread
          obtain ⟨p, hp⟩ := hread
          cases hp
        · intro hread
          exact absurd hread.1 hoffends.not_fits

/-- And refused exactly for the first one that does not. -/
theorem ofParts_eq_error_iff : ofParts text ps = .error fault ↔ FirstOffence text ps fault := by
  induction ps with
  | nil =>
      constructor
      · intro hread
        cases hread
      · intro hoffence
        obtain ⟨before, part, after, heq, -⟩ := hoffence
        exact absurd heq (by simp)
  | cons part after ih =>
      rcases part_cases text part after with hpart | ⟨rfl, rfl⟩ | ⟨fault', hoffends⟩
      · rw [firstOffence_cons hpart, ← ih, ofParts_identifier hpart]
        cases ofParts text after <;> simp [Except.map]
      · rw [firstOffence_head isIdentifier_star]
        constructor
        · intro hread
          cases hread
        · intro hoffends
          exact absurd (.inr ⟨rfl, rfl⟩) hoffends.not_fits
      · have hpart : isIdentifier part = false :=
          eq_false_of_ne_true fun hidentifier => hoffends.not_fits (.inl hidentifier)
        rw [firstOffence_head hpart]
        constructor
        · intro hread
          rw [hoffends.ofParts] at hread
          cases hread
          exact hoffends
        · exact Offends.ofParts

-- ================================================================= limits

theorem parts_toList (text : String) : parts text.toList = split text := parts_eq_splitOnP _

/-- Within the limits a text is read part by part. -/
theorem parse_of_withinLimits (h : WithinLimits text) :
    parse text = ofParts text (split text) := by
  have hnonempty : text.toList.length ≠ 0 := by
    rw [String.length_toList]
    exact Nat.ne_of_gt h.nonempty
  have hshort : ¬ maxPatternLength < text.toList.length := by
    rw [String.length_toList]
    exact Nat.not_lt.2 h.short
  have hfew : ¬ maxPatternParts < (split text).length := Nat.not_lt.2 h.few
  rw [parse, if_neg hnonempty, if_neg hshort]
  dsimp only
  rw [parts_toList, if_neg hfew]

/-- And outside of them it is not read at all. -/
theorem withinLimits_of_parse {p : Pattern} (h : parse text = .ok p) : WithinLimits text := by
  unfold parse at h
  dsimp only at h
  rw [String.length_toList] at h
  split at h
  · cases h
  next hnonempty =>
    split at h
    · cases h
    next hshort =>
      split at h
      · cases h
      next hfew =>
        rw [parts_toList] at hfew
        exact ⟨Nat.pos_of_ne_zero hnonempty, Nat.le_of_not_lt hshort, Nat.le_of_not_lt hfew⟩

-- =============================================================== the result

/-- The parts of a text are the labels of the pattern that is read. -/
theorem labels_of_parse {p : Pattern} (h : parse text = .ok p) :
    p.labels = split text := by
  rw [parse_of_withinLimits (withinLimits_of_parse h)] at h
  exact (labels_of_ofParts h).1

theorem Spelled.segments_eq_filter {p : Pattern} (h : p.Spelled) :
    p.segments.map String.toList = p.labels.filter isIdentifier := by
  have hsegments : (p.segments.map String.toList).filter isIdentifier
      = p.segments.map String.toList := by
    apply List.filter_eq_self.2
    intro part hpart
    obtain ⟨s, hs, rfl⟩ := List.mem_map.1 hpart
    exact h.identifiers s hs
  have hstar : (if p.wildcard then [['*']] else []).filter isIdentifier = [] := by
    split
    · exact List.filter_cons_of_neg (by rw [isIdentifier_star]; decide)
    · rfl
  rw [labels, List.filter_append, hsegments, hstar, List.append_nil]

/-- A pattern is starred exactly if its last label is a star. -/
theorem Spelled.wildcard_iff {p : Pattern} (h : p.Spelled) :
    p.wildcard = true ↔ p.labels.getLast? = some ['*'] := by
  rw [labels]
  cases p.wildcard with
  | true => simp
  | false =>
      simp only [Bool.false_eq_true, if_false, List.append_nil, false_iff]
      intro hlast
      obtain ⟨s, hs, hstar⟩ := List.mem_map.1 (List.mem_of_getLast? hlast)
      exact ne_star_of_isIdentifier (h.identifiers s hs) hstar

/-- A pattern is shown as the text that it was read from, with dots. -/
theorem display_of_parse {p : Pattern} (h : parse text = .ok p) :
    p.display = text.map dotted := by
  apply String.toList_injective
  rw [toList_display, labels_of_parse h, ← parts_toList, intercalate_parts, String.toList_map]

/-- So texts are read as one pattern exactly if they are one text with
dots. -/
theorem parse_inj {other : String} {p q : Pattern} (hp : parse text = .ok p)
    (hq : parse other = .ok q) : p = q ↔ text.map dotted = other.map dotted := by
  rw [← display_of_parse hp, ← display_of_parse hq]
  constructor
  · exact congrArg display
  · exact display_injective (wellFormed_of_parse hp).toSpelled (wellFormed_of_parse hq).toSpelled

-- ============================================================= the grammar

/-- A text is read as a pattern exactly if it is within the limits and
every part fits where it stands. Its identifiers are then the segments,
and the pattern is starred exactly if the last part is a star. It is shown
as the text with dots and read back from that, so texts are read as one
pattern exactly if they agree with dots. Names are the texts that do not
end in a star. Within the limits, a text is refused exactly for the first
part that does not fit. -/
theorem reads_grammar (text : String) :
    ((∃ p, parse text = .ok p) ↔ WithinLimits text ∧ Regular (split text))
      ∧ (∀ p, parse text = .ok p →
        p.segments.map String.toList = (split text).filter isIdentifier
          ∧ (p.wildcard = true ↔ (split text).getLast? = some ['*'])
          ∧ p.display = text.map dotted
          ∧ parse p.display = .ok p
          ∧ ∀ other q, parse other = .ok q → (p = q ↔ text.map dotted = other.map dotted))
      ∧ (∀ p, name text = .ok p ↔ parse text = .ok p ∧ (split text).getLast? ≠ some ['*'])
      ∧ (WithinLimits text →
        ∀ fault, parse text = .error fault ↔ FirstOffence text (split text) fault) := by
  refine ⟨?_, ?_, ?_, ?_⟩
  · rw [← exists_ofParts_iff text]
    constructor
    · intro hparse
      obtain ⟨p, hp⟩ := hparse
      have hlimits := withinLimits_of_parse hp
      exact ⟨hlimits, p, parse_of_withinLimits hlimits ▸ hp⟩
    · intro hparts
      obtain ⟨hlimits, p, hp⟩ := hparts
      exact ⟨p, (parse_of_withinLimits hlimits).trans hp⟩
  · intro p hp
    have hspelled := (wellFormed_of_parse hp).toSpelled
    rw [← labels_of_parse hp]
    exact ⟨hspelled.segments_eq_filter, hspelled.wildcard_iff, display_of_parse hp,
      parse_display (wellFormed_of_parse hp), fun other q hq => parse_inj hp hq⟩
  · intro p
    rw [name_eq_ok_iff]
    apply and_congr_right
    intro hp
    have hspelled := (wellFormed_of_parse hp).toSpelled
    rw [← labels_of_parse hp, ne_eq, ← hspelled.wildcard_iff, Bool.not_eq_true]
  · intro hlimits fault
    rw [parse_of_withinLimits hlimits, ofParts_eq_error_iff]

example : parse "com/example.*" = .ok ⟨["com", "example"], true⟩ := by rfl

/-- The star comes before the empty part. -/
example : parse "a.*..b" = .error (.misplacedWildcard "a.*..b") := by rfl

end Pattern

end LayeredLexer
