/-
Strings and numbers that were written, read again. The reader takes one
character at a time, so what it does with a text is said of the state that
it has reached behind it (`Reached`), and a proof goes through a text as
the reader does.

# When a number is over

A number is over only when a character comes that does not continue it, and
that character is then read as what stands behind the value. So behind a
value there are two states to reckon with: the value is put where it
belongs, or it is a number that still waits. What they have in common is
all that anything behind a value needs (`Settles`): the next character, if
it is none of a number, is read as if the value had been put in its place,
and so is the end of the text.
-/
import LayeredLexer.Json.Reader
import Mathlib.Tactic.IntervalCases

namespace LayeredLexer.Json

open Reader

/-- The state that is reached behind a text. -/
def Reached (text : String) (state : Reader) : Prop :=
  text.toList.foldlM step initial = some state

/-- One more piece of text. -/
theorem Reached.append {text piece : String} {state next : Reader} (h : Reached text state)
    (hnext : piece.toList.foldlM step state = some next) : Reached (text ++ piece) next := by
  have hsame : text.toList.foldlM step initial = some state := h
  rw [Reached, String.toList_append, List.foldlM_append, hsame]
  exact hnext

-- ============================================================ what comes next

/-- A state that blanks leave as it is. -/
def Rests (state : Reader) : Prop := ∀ c, isSpacing c = true → state.step c = some state

/-- Blanks may stand between any two parts of a text. -/
theorem rests_between {frames : List Frame} {expected : Expected}
    (h : ∀ c, Reader.step ⟨frames, expected⟩ c = between frames expected c) :
    Rests ⟨frames, expected⟩ :=
  fun c hc => (h c).trans (if_pos hc)

/-- A state in which a value may begin: only a blank, and a bracket that
closes an array, are no beginning of a value. -/
structure Begins (state : Reader) (frames : List Frame) : Prop where
  rests : Rests state
  opens : ∀ c, isSpacing c = false → c ≠ ']' → state.step c = open? frames c

theorem begins_value (frames : List Frame) : Begins ⟨frames, .value⟩ frames where
  rests := rests_between fun _ => rfl
  opens c hc _ := if_neg (by simp [hc])

theorem begins_item (frames : List Frame) : Begins ⟨frames, .item⟩ frames where
  rests := rests_between fun _ => rfl
  opens c hc hclose := by
    show between frames .item c = _
    rw [between, if_neg (by simp [hc])]
    exact if_neg hclose

/-- A character that continues no number. -/
structure EndsNumber (c : Char) : Prop where
  noDigit : digitValue? c = none
  noPoint : c ≠ '.'
  noExponent : c ≠ 'e' ∧ c ≠ 'E'

/-- A state that is as good as another one behind a value. -/
structure Alike (state next : Reader) : Prop where
  step : ∀ c, EndsNumber c → state.step c = next.step c
  result : state.result? = next.result?

/-- Behind a text the reader is as good as in this state. -/
def Settles (text : String) (next : Reader) : Prop :=
  ∃ state, Reached text state ∧ Alike state next

theorem Reached.settles {text : String} {next : Reader} (h : Reached text next) :
    Settles text next :=
  ⟨next, h, fun _ _ => rfl, rfl⟩

variable {text : String} {state next : Reader} {frames : List Frame}

-- ================================================================ words

/-- The rest of a word is read to its end. -/
theorem foldlM_word {rest : List Char} (hrest : rest ≠ []) (value : Json) :
    rest.foldlM Reader.step ⟨frames, .word rest value⟩ = put frames value := by
  induction rest with
  | nil => exact absurd rfl hrest
  | cons letter rest ih =>
      cases rest with
      | nil =>
          have hlast : Reader.step ⟨frames, .word [letter] value⟩ letter = put frames value :=
            if_pos rfl
          rw [List.foldlM_cons, hlast]
          exact bind_pure _
      | cons second rest =>
          have hmore : Reader.step ⟨frames, .word (letter :: second :: rest) value⟩ letter
              = some ⟨frames, .word (second :: rest) value⟩ := if_pos rfl
          rw [List.foldlM_cons, hmore]
          exact ih (List.cons_ne_nil _ _)

theorem settles_word {word : String} (first : Char) {rest : List Char} {value : Json}
    (hword : word.toList = first :: rest) (hrest : rest ≠ [])
    (hplain : isSpacing first = false ∧ first ≠ ']')
    (hopen : open? frames first = some ⟨frames, .word rest value⟩)
    (h : Reached text state) (hbegins : Begins state frames)
    (hput : put frames value = some next) : Settles (text ++ word) next := by
  refine (h.append ?_).settles
  rw [hword, List.foldlM_cons, hbegins.opens first hplain.1 hplain.2, hopen]
  exact (foldlM_word hrest value).trans hput

theorem settles_null (h : Reached text state) (hbegins : Begins state frames)
    (hput : put frames .null = some next) : Settles (text ++ "null") next :=
  settles_word 'n' rfl (List.cons_ne_nil _ _) (by decide) rfl h hbegins hput

theorem settles_bool (value : Bool) (h : Reached text state) (hbegins : Begins state frames)
    (hput : put frames (.bool value) = some next) :
    Settles (text ++ if value then "true" else "false") next := by
  cases value with
  | true => exact settles_word 't' rfl (List.cons_ne_nil _ _) (by decide) rfl h hbegins hput
  | false => exact settles_word 'f' rfl (List.cons_ne_nil _ _) (by decide) rfl h hbegins hput

-- ================================================================ digits

theorem digitValue?_digitChar {d : Nat} (hd : d < 10) : digitValue? d.digitChar = some d := by
  interval_cases d <;> rfl

/-- The digits of a number are read one after the other. -/
theorem foldlM_toDigits (read : Nat → Reader)
    (hfirst : ∀ d < 10, state.step d.digitChar = some (read d))
    (hmore : ∀ n d, 0 < n → d < 10 → (read n).step d.digitChar = some (read (n * 10 + d)))
    (n : Nat) : (toString n).toList.foldlM Reader.step state = some (read n) := by
  have hdigits : (toString n).toList = Nat.toDigits 10 n := String.toList_ofList
  rw [hdigits]
  clear hdigits
  induction n using Nat.strong_induction_on with
  | _ n ih =>
      by_cases hn : n < 10
      · rw [Nat.toDigits_of_lt_base hn, List.foldlM_cons, hfirst n hn]
        rfl
      · rw [Nat.toDigits_of_base_le (by decide) (by omega), List.foldlM_append,
          ih (n / 10) (by omega), Option.bind_eq_bind, Option.bind_some, List.foldlM_cons,
          hmore _ _ (by omega) (Nat.mod_lt n (by decide)), Nat.div_add_mod']
        rfl

-- =============================================================== numbers

/-- A number of which the digits before a point or an exponent were read. -/
def wholeRead (negative : Bool) (n : Nat) : NumberRead :=
  { negative, significand := n, place := if n = 0 then .zero else .whole }

/-- The same number with its exponent. -/
def scaledRead (negative : Bool) (n : Nat) (exponentNegative : Bool) (exponent : Nat) :
    NumberRead :=
  { negative, significand := n, exponentNegative, exponent, place := .exponentDigits }

theorem wholeRead_pos (negative : Bool) {n : Nat} (hn : 0 < n) :
    wholeRead negative n = { negative, significand := n, place := .whole } := by
  rw [wholeRead, if_neg (Nat.ne_of_gt hn)]

/-- A number goes on with a digit if it does not begin with zero. -/
theorem step_wholeRead (negative : Bool) {n d : Nat} (hn : 0 < n) (hd : d < 10) :
    Reader.step ⟨frames, .number (wholeRead negative n)⟩ d.digitChar
      = some ⟨frames, .number (wholeRead negative (n * 10 + d))⟩ := by
  have hmore : (wholeRead negative n).step? d.digitChar
      = some (wholeRead negative (n * 10 + d)) := by
    rw [wholeRead_pos _ hn, wholeRead_pos _ (Nat.add_pos_left (Nat.mul_pos hn (by decide)) d)]
    simp only [NumberRead.step?, digitValue?_digitChar hd, NumberRead.digit?]
  simp only [Reader.step, hmore]

theorem foldlM_whole (hbegins : Begins state frames) (n : Nat) :
    (toString n).toList.foldlM Reader.step state
      = some ⟨frames, .number (wholeRead false n)⟩ := by
  refine foldlM_toDigits (fun n => ⟨frames, .number (wholeRead false n)⟩) (fun d hd => ?_)
    (fun _ _ hn hd => step_wholeRead false hn hd) n
  have hplain : isSpacing d.digitChar = false ∧ d.digitChar ≠ ']' := by
    interval_cases d <;> decide
  rw [hbegins.opens _ hplain.1 hplain.2]
  interval_cases d <;> rfl

theorem foldlM_negative (hbegins : Begins state frames) (n : Nat) :
    ("-" ++ toString n).toList.foldlM Reader.step state
      = some ⟨frames, .number (wholeRead true n)⟩ := by
  have hsign : state.step '-'
      = some ⟨frames, .number { negative := true, significand := 0, place := .sign }⟩ :=
    hbegins.opens '-' rfl (by decide)
  have hmark : "-".toList = ['-'] := rfl
  rw [String.toList_append, hmark, List.singleton_append, List.foldlM_cons, hsign]
  refine foldlM_toDigits (fun n => ⟨frames, .number (wholeRead true n)⟩) (fun d hd => ?_)
    (fun _ _ hn hd => step_wholeRead true hn hd) n
  interval_cases d <;> rfl

/-- An exponent is read behind a whole number. -/
theorem foldlM_exponent (negative : Bool) (n : Nat) (exponent : Int) :
    ("e" ++ toString exponent).toList.foldlM Reader.step
        ⟨frames, .number (wholeRead negative n)⟩
      = some ⟨frames, .number (scaledRead negative n (exponent < 0) exponent.natAbs)⟩ := by
  have hmark : Reader.step ⟨frames, .number (wholeRead negative n)⟩ 'e'
      = some ⟨frames, .number { negative, significand := n, place := .exponent }⟩ := by
    rcases Nat.eq_zero_or_pos n with rfl | hn
    · rfl
    · rw [wholeRead_pos _ hn]
      rfl
  have hletter : "e".toList = ['e'] := rfl
  rw [String.toList_append, hletter, List.singleton_append, List.foldlM_cons, hmark]
  have hmore (sign : Bool) (e d : Nat) (hd : d < 10) :
      Reader.step ⟨frames, .number (scaledRead negative n sign e)⟩ d.digitChar
        = some ⟨frames, .number (scaledRead negative n sign (e * 10 + d))⟩ := by
    simp only [Reader.step, NumberRead.step?, digitValue?_digitChar hd, NumberRead.digit?,
      scaledRead]
  cases exponent with
  | ofNat e =>
      refine foldlM_toDigits (fun e => ⟨frames, .number (scaledRead negative n false e)⟩)
        (fun d hd => ?_) (fun e d _ hd => hmore false e d hd) e
      interval_cases d <;> rfl
  | negSucc e =>
      have hwritten : (toString (Int.negSucc e)).toList = '-' :: (toString (e + 1)).toList :=
        String.toList_append
      have hminus : Reader.step
            ⟨frames, .number { negative, significand := n, place := .exponent }⟩ '-'
          = some ⟨frames, .number
            { negative, significand := n, exponentNegative := true, place := .exponentSign }⟩ :=
        rfl
      rw [hwritten, Option.bind_eq_bind, Option.bind_some, List.foldlM_cons, hminus,
        Option.bind_eq_bind, Option.bind_some, Int.natAbs_negSucc,
        decide_eq_true (Int.negSucc_lt_zero e)]
      refine foldlM_toDigits (fun e => ⟨frames, .number (scaledRead negative n true e)⟩)
        (fun d hd => ?_) (fun e d _ hd => hmore true e d hd) (e + 1)
      interval_cases d <;> rfl

/-- Where a value was put, the next character is read between the parts of
a text. -/
theorem step_of_put {value : Json} (hput : put frames value = some next) (c : Char) :
    next.step c = between next.frames next.expected c := by
  rcases frames with _ | ⟨_ | _ | _, outer⟩
  all_goals
    cases hput
    try rfl

/-- A number that may end and that the next character does not continue. -/
theorem Reached.settles_number {read : NumberRead} {value : Json}
    (h : Reached text ⟨frames, .number read⟩) (hresult : read.result? = some value)
    (hplace : read.place = .zero ∨ read.place = .whole ∨ read.place = .exponentDigits)
    (hput : put frames value = some next) : Settles text next := by
  refine ⟨_, h, ?_, ?_⟩
  · intro c hc
    obtain ⟨hdigit, hpoint, he, hE⟩ := hc
    have hover : read.step? c = none := by
      rcases hplace with hplace | hplace | hplace <;>
        simp [NumberRead.step?, hdigit, hplace, hpoint, he, hE]
    simp only [Reader.step, hover, hresult, Option.bind_some, hput]
    exact (step_of_put hput c).symm
  · rcases frames with _ | ⟨_ | _ | _, outer⟩
    all_goals
      cases hput
      try rfl
    exact hresult

theorem place_wholeRead (negative : Bool) (n : Nat) :
    (wholeRead negative n).place = .zero ∨ (wholeRead negative n).place = .whole := by
  rcases Nat.eq_zero_or_pos n with rfl | hn
  · exact Or.inl rfl
  · exact Or.inr (by rw [wholeRead_pos _ hn])

theorem result?_wholeRead (negative : Bool) (n : Nat) :
    (wholeRead negative n).result? = some (if negative then .decimal true n 0 else .natural n) := by
  rcases Nat.eq_zero_or_pos n with rfl | hn
  · cases negative <;> rfl
  · rw [wholeRead_pos _ hn]
    cases negative <;> rfl

theorem result?_scaledRead (negative : Bool) (n : Nat) (exponent : Int) :
    (scaledRead negative n (exponent < 0) exponent.natAbs).result?
      = some (.decimal negative n exponent) := by
  cases exponent with
  | ofNat e => simp [NumberRead.result?, scaledRead]
  | negSucc e =>
      simp only [NumberRead.result?, scaledRead, Int.negSucc_lt_zero, decide_true, if_true,
        Int.natAbs_negSucc, Nat.cast_zero, sub_zero]
      rfl

theorem settles_natural (n : Nat) (h : Reached text state) (hbegins : Begins state frames)
    (hput : put frames (.natural n) = some next) : Settles (text ++ toString n) next :=
  (h.append (foldlM_whole hbegins n)).settles_number (result?_wholeRead false n)
    ((place_wholeRead false n).imp_right Or.inl) hput

theorem settles_decimal (negative : Bool) (n : Nat) (exponent : Int) (h : Reached text state)
    (hbegins : Begins state frames) (hput : put frames (.decimal negative n exponent) = some next) :
    Settles (text ++ writeDecimal negative n exponent) next := by
  unfold writeDecimal
  cases negative with
  | false =>
      have hwhole := h.append (foldlM_whole hbegins n)
      rw [if_neg Bool.false_ne_true, String.append_assoc, ← String.append_assoc]
      exact (hwhole.append (foldlM_exponent false n exponent)).settles_number
        (result?_scaledRead false n exponent) (Or.inr (Or.inr rfl)) hput
  | true =>
      have hwhole := h.append (foldlM_negative hbegins n)
      rw [if_pos rfl]
      split
      next hzero =>
        subst hzero
        exact hwhole.settles_number (result?_wholeRead true n)
          ((place_wholeRead true n).imp_right Or.inl) hput
      next =>
        have hparts : text ++ ("-" ++ toString n ++ "e" ++ toString exponent)
            = text ++ ("-" ++ toString n) ++ ("e" ++ toString exponent) := by
          simp only [String.append_assoc]
        rw [hparts]
        exact (hwhole.append (foldlM_exponent true n exponent)).settles_number
          (result?_scaledRead true n exponent) (Or.inr (Or.inr rfl)) hput

-- =============================================================== strings

variable {isKey : Bool} {read : String}

/-- The state inside a string of which these characters have been read. -/
def inside (frames : List Frame) (isKey : Bool) (read : String) : Reader :=
  ⟨frames, .string isKey ⟨some read, none, .outside⟩⟩

/-- What a string is when it closes: a key, or a value. -/
def closed (frames : List Frame) (isKey : Bool) (text : Option String) : Option Reader :=
  if isKey then some ⟨frames, .colon text⟩ else put frames (.string text)

theorem hexValue?_digitChar {d : Nat} (hd : d < 16) : hexValue? d.digitChar = some d := by
  interval_cases d <;> rfl

/-- A control character is read from its number. -/
theorem foldlM_control {c : Char} (hc : c.toNat < 0x20) :
    ("\\u00" ++ hexPair c.toNat).toList.foldlM Reader.step (inside frames isKey read)
      = some (inside frames isKey (read.push c)) := by
  have hchars : ("\\u00" ++ hexPair c.toNat).toList
      = ['\\', 'u', '0', '0'] ++ [(c.toNat / 16 % 16).digitChar, (c.toNat % 16).digitChar] := by
    have hmark : "\\u00".toList = ['\\', 'u', '0', '0'] := rfl
    rw [String.toList_append, hmark, hexPair, String.toList_ofList]
  have hopened : ['\\', 'u', '0', '0'].foldlM Reader.step (inside frames isKey read)
      = some ⟨frames, .string isKey ⟨some read, none, .digits 2 0⟩⟩ := rfl
  have hthird : Reader.step ⟨frames, .string isKey ⟨some read, none, .digits 2 0⟩⟩
        (c.toNat / 16 % 16).digitChar
      = some ⟨frames, .string isKey ⟨some read, none, .digits 3 (c.toNat / 16 % 16)⟩⟩ := by
    simp [Reader.step, inString, hexValue?_digitChar (Nat.mod_lt _ (by decide : 0 < 16))]
  have hunit : c.toNat / 16 % 16 * 16 + c.toNat % 16 = c.toNat := by omega
  have hhigh : ¬ 0xD800 ≤ c.toNat := by omega
  have hlow : ¬ 0xDC00 ≤ c.toNat := by omega
  have hlast : Reader.step
        ⟨frames, .string isKey ⟨some read, none, .digits 3 (c.toNat / 16 % 16)⟩⟩
        (c.toNat % 16).digitChar
      = some (inside frames isKey (read.push c)) := by
    simp [Reader.step, inString, hexValue?_digitChar (Nat.mod_lt _ (by decide : 0 < 16)), hunit,
      StringRead.addUnit, hhigh, hlow, inside, Char.ofNat_toNat]
  rw [hchars, List.foldlM_append, hopened, Option.bind_eq_bind, Option.bind_some, List.foldlM_cons,
    hthird, Option.bind_eq_bind, Option.bind_some, List.foldlM_cons, hlast]
  rfl

/-- A character is read from what is written for it. -/
theorem foldlM_escape (c : Char) :
    (escape c).toList.foldlM Reader.step (inside frames isKey read)
      = some (inside frames isKey (read.push c)) := by
  unfold escape
  split
  case h_8 hquote hslash _ _ _ _ _ =>
    split
    next hcontrol => exact foldlM_control hcontrol
    next hplain =>
      have hq : c ≠ '"' := hquote
      have hs : c ≠ '\\' := hslash
      have hstep : (inside frames isKey read).step c = some (inside frames isKey (read.push c)) := by
        simp [inside, Reader.step, inString, hq, hs, hplain, StringRead.add]
      rw [Char.toString, String.toList_singleton, List.foldlM_cons, hstep]
      rfl
  all_goals rfl

/-- So are all characters of a string. -/
theorem foldlM_escapes (cs : List Char) :
    (cs.flatMap fun c => (escape c).toList).foldlM Reader.step (inside frames isKey read)
      = some (inside frames isKey (read ++ String.ofList cs)) := by
  induction cs generalizing read with
  | nil => simp
  | cons c rest ih =>
      rw [List.flatMap_cons, List.foldlM_append, foldlM_escape, Option.bind_eq_bind,
        Option.bind_some, ih]
      congr 2
      rw [← String.toList_inj]
      simp

theorem toList_quote (s : String) :
    (quote s).toList = '"' :: ((s.toList.flatMap fun c => (escape c).toList) ++ ['"']) := by
  have hwritten (cs : List Char) (text : String) :
      (cs.foldl (fun written c => written ++ escape c) text).toList
        = text.toList ++ cs.flatMap fun c => (escape c).toList := by
    induction cs generalizing text with
    | nil => simp
    | cons c rest ih =>
        rw [List.foldl_cons, ih, String.toList_append, List.flatMap_cons, List.append_assoc]
  rw [quote, String.toList_append, hwritten]
  rfl

/-- A string is read from what is written for it. -/
theorem foldlM_writeString (s : Option String)
    (hopen : state.step '"' = some (inside frames isKey "")) :
    (writeString s).toList.foldlM Reader.step state = closed frames isKey s := by
  cases s with
  | none =>
      have hchars : (writeString none).toList
          = '"' :: (['\\', 'u', 'd', '8', '0', '0'] ++ ['"']) := rfl
      have hhalf : ['\\', 'u', 'd', '8', '0', '0'].foldlM Reader.step (inside frames isKey "")
          = some ⟨frames, .string isKey ⟨some "", some 0xD800, .outside⟩⟩ := rfl
      rw [hchars, List.foldlM_cons, hopen, Option.bind_eq_bind, Option.bind_some,
        List.foldlM_append, hhalf, Option.bind_eq_bind, Option.bind_some]
      exact bind_pure _
  | some s =>
      have hclose : (inside frames isKey s).step '"' = closed frames isKey (some s) := rfl
      rw [writeString, toList_quote, List.foldlM_cons, hopen, Option.bind_eq_bind,
        Option.bind_some, List.foldlM_append, foldlM_escapes, Option.bind_eq_bind,
        Option.bind_some, String.empty_append, String.ofList_toList, List.foldlM_cons, hclose]
      exact bind_pure _

theorem settles_string (s : Option String) (h : Reached text state) (hbegins : Begins state frames)
    (hput : put frames (.string s) = some next) : Settles (text ++ writeString s) next := by
  have hopen : state.step '"' = some (inside frames false "") :=
    hbegins.opens '"' rfl (by decide)
  refine (h.append ?_).settles
  rw [foldlM_writeString s hopen]
  exact hput

end LayeredLexer.Json
