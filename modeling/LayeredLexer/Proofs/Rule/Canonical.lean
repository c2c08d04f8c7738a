/-
Patterns and their canonical texts. A pattern that was read from a text
is well formed, and a well-formed pattern is read back from the text that
shows it (`parse_display`). So the texts of well-formed patterns differ
whenever the patterns do, and a canonical text may stand for its pattern
as a key.

Reading splits a text into its parts, showing joins them, and both sides
meet in the `labels` of a pattern: `ofParts` takes parts to the pattern
that has them for labels. Joined by dots, the parts of a text are the text
itself with its separators shown as dots, so the canonical text is no
longer than the one that was read.
-/
import LayeredLexer.Rule.Pattern

namespace LayeredLexer

namespace Pattern

-- ================================================================ labels

/-- The parts of a pattern, the star among them. -/
def labels (pattern : Pattern) : List (List Char) :=
  pattern.segments.map String.toList ++ if pattern.wildcard then [['*']] else []

theorem toList_display (p : Pattern) : p.display.toList = ['.'].intercalate p.labels := by
  obtain ⟨segments, wildcard⟩ := p
  rw [display, String.toList_intercalate, List.map_append, labels]
  cases wildcard <;> rfl

theorem labels_cons (s : String) (segments : List String) (wildcard : Bool) :
    labels ⟨s :: segments, wildcard⟩ = s.toList :: labels ⟨segments, wildcard⟩ := rfl

-- ============================================================ separators

/-- Neither separator may stand in an identifier. -/
theorem separator_not_identifier {c : Char} (h : isSeparator c) :
    isIdentifierStart c = false ∧ isIdentifierPart c = false := by
  rcases Bool.or_eq_true_iff.1 h with heq | heq
  · rw [eq_of_beq heq]
    decide +kernel
  · rw [eq_of_beq heq]
    decide +kernel

theorem not_isSeparator_of_isIdentifier {cs : List Char} (h : isIdentifier cs) :
    ∀ c ∈ cs, isSeparator c = false := by
  intro c hc
  cases cs with
  | nil => cases hc
  | cons d rest =>
      obtain ⟨hstart, hparts⟩ := Bool.and_eq_true_iff.1 h
      rw [← Bool.not_eq_true]
      intro hsep
      obtain ⟨hnoStart, hnoPart⟩ := separator_not_identifier hsep
      rcases List.mem_cons.1 hc with rfl | hc
      · rw [hnoStart] at hstart
        cases hstart
      · have hpart := List.all_eq_true.1 hparts c hc
        rw [hnoPart] at hpart
        cases hpart

theorem isIdentifier_star : isIdentifier ['*'] = false := by decide +kernel

theorem ne_star_of_isIdentifier {cs : List Char} (h : isIdentifier cs) : cs ≠ ['*'] := by
  intro heq
  rw [heq, isIdentifier_star] at h
  cases h

theorem ne_nil_of_isIdentifier {cs : List Char} (h : isIdentifier cs) : cs ≠ [] := by
  intro heq
  rw [heq] at h
  cases h

theorem parts_eq_splitOnP (cs : List Char) : parts cs = cs.splitOnP isSeparator := by
  induction cs with
  | nil => rfl
  | cons c rest ih =>
      rw [parts, List.splitOnP_cons_eq_if_modifyHead, ih]
      split
      · rfl
      · cases hparts : rest.splitOnP isSeparator with
        | nil => exact absurd hparts (List.splitOnP_ne_nil _ _)
        | cons part later => rfl

/-- Parts joined by dots are found again. -/
theorem parts_intercalate {ps : List (List Char)} (hne : ps ≠ [])
    (hfree : ∀ part ∈ ps, ∀ c ∈ part, isSeparator c = false) :
    parts (['.'].intercalate ps) = ps := by
  induction ps with
  | nil => exact absurd rfl hne
  | cons part rest ih =>
      have hpart := hfree part List.mem_cons_self
      rw [parts_eq_splitOnP] at ih ⊢
      cases rest with
      | nil => rw [List.intercalate_singleton, List.splitOnP_eq_singleton hpart]
      | cons next rest =>
          rw [List.intercalate_cons_cons, List.append_assoc, List.singleton_append,
            List.splitOnP_append_cons_of_forall_mem hpart '.' rfl,
            ih (List.cons_ne_nil _ _) fun p hp => hfree p (List.mem_cons_of_mem _ hp)]

/-- The dot that is shown for either separator. -/
def dotted (c : Char) : Char := if c = '/' then '.' else c

theorem dotted_of_isSeparator {c : Char} (h : isSeparator c) : dotted c = '.' := by
  rcases Bool.or_eq_true_iff.1 h with heq | heq
  · rw [eq_of_beq heq]
    rfl
  · rw [eq_of_beq heq]
    rfl

theorem dotted_of_not_isSeparator {c : Char} (h : ¬ isSeparator c) : dotted c = c := by
  apply if_neg
  intro heq
  rw [heq] at h
  exact h rfl

/-- Joined by dots, the parts of a text are the text with dots. -/
theorem intercalate_parts (cs : List Char) : ['.'].intercalate (parts cs) = cs.map dotted := by
  induction cs with
  | nil => rfl
  | cons c rest ih =>
      have hrest : parts rest ≠ [] := parts_eq_splitOnP rest ▸ List.splitOnP_ne_nil _ _
      rw [parts, List.map_cons]
      split
      next hseparator =>
        rw [List.intercalate_cons_of_ne_nil hrest, ih, dotted_of_isSeparator hseparator]
        rfl
      next hpart =>
        rw [dotted_of_not_isSeparator hpart]
        cases hparts : parts rest with
        | nil => exact absurd hparts hrest
        | cons part later =>
            rw [hparts] at ih
            dsimp only
            rw [List.intercalate_cons_cons_left, ih]

-- =============================================================== reading

/-- Reading goes on behind an identifier. -/
theorem ofParts_identifier {text : String} {part : List Char} {after : List (List Char)}
    (h : isIdentifier part) :
    ofParts text (part :: after)
      = (ofParts text after).map fun p => ⟨String.ofList part :: p.segments, p.wildcard⟩ := by
  rw [ofParts, if_neg (ne_star_of_isIdentifier h), if_neg (ne_nil_of_isIdentifier h), if_pos h]
  cases ofParts text after <;> rfl

/-- What is read from parts has them for labels. -/
theorem labels_of_ofParts {text : String} {ps : List (List Char)} {p : Pattern}
    (h : ofParts text ps = .ok p) :
    p.labels = ps ∧ ∀ s ∈ p.segments, isIdentifier s.toList := by
  induction ps generalizing p with
  | nil =>
      cases h
      exact ⟨rfl, fun _ hs => nomatch hs⟩
  | cons part rest ih =>
      rw [ofParts] at h
      split at h
      next hstar =>
        split at h
        next hlast =>
          cases h
          rw [hstar, List.isEmpty_iff.1 hlast]
          exact ⟨rfl, fun _ hs => nomatch hs⟩
        · cases h
      next =>
        split at h
        · cases h
        split at h
        next hidentifier =>
          cases hrest : ofParts text rest with
          | error fault => rw [hrest] at h; cases h
          | ok q =>
              rw [hrest] at h
              cases h
              obtain ⟨hlabels, hq⟩ := ih hrest
              constructor
              · rw [labels_cons, String.toList_ofList, ← hlabels]
              · intro s hs
                rcases List.mem_cons.1 hs with rfl | hs
                · rwa [String.toList_ofList]
                · exact hq s hs
        · cases h

/-- The labels of a pattern are read back. -/
theorem ofParts_labels (text : String) {p : Pattern}
    (h : ∀ s ∈ p.segments, isIdentifier s.toList) : ofParts text p.labels = .ok p := by
  obtain ⟨segments, wildcard⟩ := p
  induction segments with
  | nil => cases wildcard <;> rfl
  | cons s segments ih =>
      rw [labels_cons, ofParts_identifier (h s List.mem_cons_self),
        ih fun t ht => h t (List.mem_cons_of_mem _ ht), Except.map, String.ofList_toList]

-- =========================================================== well-formed

/-- A pattern whose canonical text has its labels for parts. -/
structure Spelled (p : Pattern) : Prop where
  nonempty : p.labels ≠ []
  identifiers : ∀ s ∈ p.segments, isIdentifier s.toList

/-- What reading a pattern promises. -/
structure WellFormed (p : Pattern) : Prop extends Spelled p where
  few : p.labels.length ≤ maxPatternParts
  short : p.display.length ≤ maxPatternLength

theorem wellFormed_of_parse {text : String} {p : Pattern} (h : parse text = .ok p) :
    p.WellFormed := by
  unfold parse at h
  dsimp only at h
  split at h
  · cases h
  split at h
  · cases h
  next hlong =>
    split at h
    · cases h
    next hmany =>
      obtain ⟨hlabels, hidentifiers⟩ := labels_of_ofParts h
      have hnonempty : p.labels ≠ [] := by
        rw [hlabels, parts_eq_splitOnP]
        exact List.splitOnP_ne_nil _ _
      refine ⟨⟨hnonempty, hidentifiers⟩, ?_, ?_⟩
      · rw [hlabels]
        exact Nat.le_of_not_lt hmany
      · rw [← String.length_toList, toList_display, hlabels, intercalate_parts, List.length_map]
        exact Nat.le_of_not_lt hlong

/-- No label is empty or holds a separator. -/
theorem Spelled.label {p : Pattern} (h : p.Spelled) {part : List Char} (hpart : part ∈ p.labels) :
    part ≠ [] ∧ ∀ c ∈ part, isSeparator c = false := by
  rcases List.mem_append.1 hpart with hsegment | hstar
  · obtain ⟨s, hs, rfl⟩ := List.mem_map.1 hsegment
    have hidentifier := h.identifiers s hs
    exact ⟨ne_nil_of_isIdentifier hidentifier, not_isSeparator_of_isIdentifier hidentifier⟩
  · split at hstar
    · rw [List.mem_singleton.1 hstar]
      exact ⟨List.cons_ne_nil _ _, List.forall_mem_singleton.2 rfl⟩
    · cases hstar

/-- The canonical text splits into the labels again. -/
theorem Spelled.parts_display {p : Pattern} (h : p.Spelled) : parts p.display.toList = p.labels := by
  rw [toList_display]
  exact parts_intercalate h.nonempty fun part hpart => (h.label hpart).2

/-- The canonical text of a well-formed pattern is read as the pattern. -/
theorem parse_display {p : Pattern} (h : p.WellFormed) : parse p.display = .ok p := by
  have hparts := h.toSpelled.parts_display
  have hsome : p.display.toList.length ≠ 0 := by
    intro hzero
    rw [List.length_eq_zero_iff.1 hzero] at hparts
    have hempty : [] ∈ p.labels := hparts ▸ List.mem_cons_self
    exact (h.toSpelled.label hempty).1 rfl
  have hlength : p.display.toList.length ≤ maxPatternLength := by
    rw [String.length_toList]
    exact h.short
  rw [parse, if_neg hsome, if_neg (Nat.not_lt.2 hlength)]
  dsimp only
  rw [hparts, if_neg (Nat.not_lt.2 h.few), ofParts_labels _ h.identifiers]

theorem display_injective {p q : Pattern} (hp : p.Spelled) (hq : q.Spelled)
    (h : p.display = q.display) : p = q := by
  have hlabels : p.labels = q.labels := by rw [← hp.parts_display, h, hq.parts_display]
  have hread := ofParts_labels p.display hp.identifiers
  rw [hlabels, ofParts_labels _ hq.identifiers] at hread
  exact (Except.ok.inj hread).symm

-- ================================================================= names

theorem name_eq_ok_iff {text : String} {n : Pattern} :
    name text = .ok n ↔ parse text = .ok n ∧ n.wildcard = false := by
  unfold name
  cases parse text with
  | error fault => simp
  | ok p =>
      constructor
      · intro h
        dsimp only at h
        split at h
        · cases h
        next hplain =>
          cases h
          exact ⟨rfl, Bool.not_eq_true _ ▸ hplain⟩
      · intro hread
        obtain ⟨h, hplain⟩ := hread
        cases h
        simp [hplain]

/-- A name is not empty. -/
theorem segments_ne_nil_of_name {text : String} {n : Pattern} (h : name text = .ok n) :
    n.segments ≠ [] := by
  obtain ⟨hparse, hplain⟩ := name_eq_ok_iff.1 h
  intro hroot
  refine (wellFormed_of_parse hparse).nonempty ?_
  rw [labels, hroot, hplain]
  rfl

/-- Without its star a pattern is still well formed, unless nothing is
left of it. -/
theorem WellFormed.plain {p : Pattern} (h : p.WellFormed) (hroot : p.segments ≠ []) :
    (⟨p.segments, false⟩ : Pattern).WellFormed := by
  obtain ⟨segments, wildcard⟩ := p
  cases wildcard with
  | false => exact h
  | true =>
      show WellFormed ⟨segments, false⟩
      have hlabels : labels ⟨segments, true⟩ = labels ⟨segments, false⟩ ++ [['*']] := by
        simp [labels]
      have hdisplay : display ⟨segments, true⟩ = display ⟨segments, false⟩ ++ "." ++ "*" := by
        simp only [display, if_true, Bool.false_eq_true, if_false, List.append_nil]
        exact String.intercalate_append_of_ne_nil hroot (List.cons_ne_nil _ _)
      refine ⟨⟨?_, h.identifiers⟩, ?_, ?_⟩
      · simpa [labels] using hroot
      · have hfew := h.few
        rw [hlabels, List.length_append] at hfew
        omega
      · have hshort := h.short
        rw [hdisplay, String.length_append, String.length_append] at hshort
        omega

/-- The name of a path that a pattern has. -/
theorem name_display_plain {path : List String} {wildcard : Bool}
    (h : (⟨path, wildcard⟩ : Pattern).WellFormed) (hroot : path ≠ []) :
    name (⟨path, false⟩ : Pattern).display = .ok ⟨path, false⟩ :=
  name_eq_ok_iff.2 ⟨parse_display (h.plain hroot), rfl⟩

end Pattern

end LayeredLexer
