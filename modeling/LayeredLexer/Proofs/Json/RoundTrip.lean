/-
Reading takes back what writing made of a value: every value, in either
layout, and whatever its strings hold. The proof follows the writer
through the value. What it says of one value is said behind any text at
whose end a value may begin, so that it holds of the items of an array and
of the members of an object as it does of the whole (`settles_write`); the
containers that are open around the value are not touched.

Only two places depend on the layout: a line may start in front of a
value, a key or a closing bracket, and a blank may stand behind a colon.
The reader passes over both.
-/
import LayeredLexer.Proofs.Json.Scalars

namespace LayeredLexer.Json

open Reader

variable {text : String} {state next : Reader} {frames : List Frame}

-- ================================================== marks between values

/-- A mark that stands behind a value. -/
theorem Settles.mark {piece : String} {c : Char} {after : Reader} (h : Settles text next)
    (hpiece : piece.toList = [c]) (hc : EndsNumber c) (hstep : next.step c = some after) :
    Reached (text ++ piece) after := by
  obtain ⟨state, hreached, halike⟩ := h
  refine hreached.append ?_
  rw [hpiece, List.foldlM_cons, halike.step c hc, hstep]
  rfl

theorem endsNumber_of_isSpacing {c : Char} (hc : isSpacing c = true) : EndsNumber c := by
  simp only [isSpacing, Bool.or_eq_true, beq_iff_eq] at hc
  rcases hc with ((rfl | rfl) | rfl) | rfl
  all_goals exact ⟨rfl, by decide, by decide⟩

/-- Blanks change nothing where they may stand. -/
theorem foldlM_blanks (hrests : Rests state) {blanks : List Char}
    (hblanks : ∀ c ∈ blanks, isSpacing c = true) : blanks.foldlM Reader.step state = some state := by
  induction blanks with
  | nil => rfl
  | cons c rest ih =>
      rw [List.foldlM_cons, hrests c (hblanks c List.mem_cons_self)]
      exact ih fun d hd => hblanks d (List.mem_cons_of_mem _ hd)

/-- Nor do they behind a value. -/
theorem Settles.blanks {piece : String} (h : Settles text next) (hrests : Rests next)
    (hblanks : ∀ c ∈ piece.toList, isSpacing c = true) : Settles (text ++ piece) next := by
  obtain ⟨state, hreached, halike⟩ := h
  cases hpiece : piece.toList with
  | nil => exact ⟨state, hreached.append (by rw [hpiece]; rfl), halike⟩
  | cons c rest =>
      rw [hpiece] at hblanks
      have hc := hblanks c List.mem_cons_self
      refine (hreached.append ?_).settles
      rw [hpiece, List.foldlM_cons, halike.step c (endsNumber_of_isSpacing hc), hrests c hc]
      exact foldlM_blanks hrests fun d hd => hblanks d (List.mem_cons_of_mem _ hd)

/-- A line starts with blanks. -/
theorem isSpacing_lineBreak (layout : Layout) :
    ∀ c ∈ layout.lineBreak.toList, isSpacing c = true := by
  cases layout with
  | compact => exact fun _ hc => absurd hc List.not_mem_nil
  | indented depth =>
      have hdeeper (n : Nat) (start : String) (hstart : ∀ c ∈ start.toList, isSpacing c = true) :
          ∀ c ∈ ((List.replicate n "  ").foldl (· ++ ·) start).toList, isSpacing c = true := by
        induction n generalizing start with
        | zero => exact hstart
        | succ n ih =>
            refine ih (start ++ "  ") fun c hc => ?_
            rw [String.toList_append, List.mem_append] at hc
            rcases hc with hc | hc
            · exact hstart c hc
            · obtain rfl : c = ' ' := by simpa using hc
              rfl
      refine hdeeper depth "\n" fun c hc => ?_
      obtain rfl : c = '\n' := by simpa using hc
      rfl

/-- Where a new line starts, the reader stays where it is. -/
theorem Reached.lineBreak (h : Reached text state) (hrests : Rests state) (layout : Layout) :
    Reached (text ++ layout.lineBreak) state :=
  h.append (foldlM_blanks hrests (isSpacing_lineBreak layout))

theorem Settles.lineBreak (h : Settles text next) (hrests : Rests next) (layout : Layout) :
    Settles (text ++ layout.lineBreak) next :=
  h.blanks hrests (isSpacing_lineBreak layout)

-- ==================================================== items and members

/-- Between the items and members of a container. -/
def behindValue (frames : List Frame) : Reader := ⟨frames, .separator⟩

theorem rests_behindValue (frames : List Frame) : Rests (behindValue frames) :=
  rests_between fun _ => rfl

/-- A comma and a new line lead to the next item, -/
theorem Settles.nextItem {done : List Json}
    (h : Settles text (behindValue (.array done :: frames))) (layout : Layout) :
    Reached (text ++ "," ++ layout.lineBreak) ⟨.array done :: frames, .value⟩ :=
  (h.mark rfl ⟨rfl, by decide, by decide⟩ rfl).lineBreak (begins_value _).rests layout

/-- and to the next key. -/
theorem Settles.nextKey {done : List (Option String × Json)}
    (h : Settles text (behindValue (.object done :: frames))) (layout : Layout) :
    Reached (text ++ "," ++ layout.lineBreak) ⟨.object done :: frames, .key⟩ := by
  have hkey : Reached (text ++ ",") ⟨.object done :: frames, .key⟩ :=
    h.mark rfl ⟨rfl, by decide, by decide⟩ rfl
  exact hkey.lineBreak (rests_between fun _ => rfl) layout

/-- A closing bracket puts the array in its place, -/
theorem Settles.closeArray {done : List Json}
    (h : Settles text (behindValue (.array done :: frames)))
    (hput : put frames (.array done.reverse) = some next) (layout : Layout) :
    Settles (text ++ layout.lineBreak ++ "]") next := by
  have hline := h.lineBreak (rests_behindValue _) layout
  exact (hline.mark (c := ']') rfl ⟨rfl, by decide, by decide⟩ hput).settles

/-- and a closing brace the object. -/
theorem Settles.closeObject {done : List (Option String × Json)}
    (h : Settles text (behindValue (.object done :: frames)))
    (hput : put frames (.object done.reverse) = some next) (layout : Layout) :
    Settles (text ++ layout.lineBreak ++ "\x7d") next := by
  have hline := h.lineBreak (rests_behindValue _) layout
  exact (hline.mark (c := '\x7d') rfl ⟨rfl, by decide, by decide⟩ hput).settles

/-- A key and its colon lead to the value. -/
theorem Reached.key {done : List (Option String × Json)} (key : Option String)
    (h : Reached text state)
    (hopen : state.step '"' = some (inside (.object done :: frames) true "")) (layout : Layout) :
    Reached (text ++ writeString key ++ layout.colon) ⟨.member done key :: frames, .value⟩ := by
  refine (h.append (foldlM_writeString key hopen)).append ?_
  have hcolon : Reader.step ⟨.object done :: frames, .colon key⟩ ':'
      = some ⟨.member done key :: frames, .value⟩ := rfl
  cases layout with
  | compact => rfl
  | indented _ =>
      have hmarks : ": ".toList = [':', ' '] := rfl
      have hblank := (begins_value (.member done key :: frames)).rests ' ' rfl
      rw [Layout.colon, hmarks, List.foldlM_cons, hcolon, Option.bind_eq_bind, Option.bind_some,
        List.foldlM_cons, hblank]
      rfl

-- ======================================================= a whole value

mutual

/-- What is written for a value is read as the value. -/
theorem settles_write (layout : Layout) {text : String} {state next : Reader}
    {frames : List Frame} (h : Reached text state) (hbegins : Begins state frames) (value : Json)
    (hput : put frames value = some next) : Settles (write layout text value) next := by
  match value with
  | .null => exact settles_null h hbegins hput
  | .bool value => exact settles_bool value h hbegins hput
  | .natural n => exact settles_natural n h hbegins hput
  | .decimal negative n exponent => exact settles_decimal negative n exponent h hbegins hput
  | .string s => exact settles_string s h hbegins hput
  | .array [] =>
      refine (h.append ?_).settles
      have hopen : state.step '[' = some ⟨.array [] :: frames, .item⟩ :=
        hbegins.opens '[' rfl (by decide)
      have hmarks : "[]".toList = ['[', ']'] := rfl
      rw [hmarks, List.foldlM_cons, hopen]
      exact (bind_pure _).trans hput
  | .array (item :: items) =>
      have hopened : Reached (text ++ "[") ⟨.array [] :: frames, .item⟩ := by
        refine h.append ?_
        exact (bind_pure _).trans (hbegins.opens '[' rfl (by decide))
      have hstart := hopened.lineBreak (begins_item _).rests layout.deeper
      have hfirst := settles_write layout.deeper hstart (begins_item _) item rfl
      refine (settles_writeItems layout.deeper hfirst items).closeArray ?_ layout
      rw [List.reverse_append, List.reverse_reverse]
      exact hput
  | .object [] =>
      refine (h.append ?_).settles
      have hopen : state.step '\x7b' = some ⟨.object [] :: frames, .member⟩ :=
        hbegins.opens '\x7b' rfl (by decide)
      have hmarks : "\x7b\x7d".toList = ['\x7b', '\x7d'] := rfl
      rw [hmarks, List.foldlM_cons, hopen]
      exact (bind_pure _).trans hput
  | .object ((key, value) :: members) =>
      have hopened : Reached (text ++ "\x7b") ⟨.object [] :: frames, .member⟩ := by
        refine h.append ?_
        exact (bind_pure _).trans (hbegins.opens '\x7b' rfl (by decide))
      have hstart := hopened.lineBreak (rests_between fun _ => rfl) layout.deeper
      have hkey := hstart.key key rfl layout
      have hfirst := settles_write layout.deeper hkey (begins_value _) value rfl
      refine (settles_writeMembers layout.deeper hfirst members).closeObject ?_ layout
      rw [List.reverse_append, List.reverse_reverse]
      exact hput

theorem settles_writeItems (layout : Layout) {text : String} {frames : List Frame}
    {done : List Json} (h : Settles text (behindValue (.array done :: frames)))
    (items : List Json) :
    Settles (writeItems layout text items)
      (behindValue (.array (items.reverse ++ done) :: frames)) := by
  match items with
  | [] => exact h
  | item :: items =>
      have hitem := settles_write layout (h.nextItem layout) (begins_value _) item rfl
      rw [List.reverse_cons, List.append_assoc, List.singleton_append]
      exact settles_writeItems layout hitem items

theorem settles_writeMembers (layout : Layout) {text : String} {frames : List Frame}
    {done : List (Option String × Json)} (h : Settles text (behindValue (.object done :: frames)))
    (members : List (Option String × Json)) :
    Settles (writeMembers layout text members)
      (behindValue (.object (members.reverse ++ done) :: frames)) := by
  match members with
  | [] => exact h
  | (key, value) :: members =>
      have hkey := (h.nextKey layout).key key rfl layout
      have hmember := settles_write layout hkey (begins_value _) value rfl
      rw [List.reverse_cons, List.append_assoc, List.singleton_append]
      exact settles_writeMembers layout hmember members

end

/-- A value is read from its text, whatever its layout. -/
theorem parse?_write (layout : Layout) (value : Json) :
    parse? (write layout "" value) = some value := by
  have hempty : Reached "" initial := rfl
  obtain ⟨state, hreached, halike⟩ := settles_write layout hempty (begins_value []) value rfl
  have hread : (write layout "" value).toList.foldlM Reader.step initial = some state := hreached
  rw [parse?, hread, Option.bind_some, halike.result]
  rfl

theorem parse?_compact (value : Json) : parse? value.compact = some value :=
  parse?_write .compact value

theorem parse?_pretty (value : Json) : parse? value.pretty = some value :=
  parse?_write (.indented 0) value

end LayeredLexer.Json
