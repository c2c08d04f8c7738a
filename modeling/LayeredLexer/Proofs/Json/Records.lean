/-
Tokens and reports that were written are read again, with all their
fields. The text is taken back by the reader of JSON text
(`parse?_write`); what is left is that a record is read from its members.

# What fits

A record that is read has its numbers bounded: offsets and counts by a
word of 64 bits, lines by one of 32. So only a record whose numbers are
within these bounds can come back (`Token.Fits`, `Report.Fits`), which is
all that its numbers can be in the first place. The counts of a report are
read as a dictionary, and every dictionary is in order.
-/
import LayeredLexer.Proofs.Json.RoundTrip
import LayeredLexer.Scan.ReportJson

namespace LayeredLexer

-- ====================================================== fields of records

namespace Json

/-- What is read of each member is read of the list. -/
theorem mapM_map_of_forall {α β γ : Type} {write : α → β} {read : β → Option γ} {result : α → γ}
    {xs : List α} (h : ∀ x ∈ xs, read (write x) = some (result x)) :
    (xs.map write).mapM read = some (xs.map result) := by
  induction xs with
  | nil => rfl
  | cons x rest ih =>
      rw [List.map_cons, List.mapM_cons, h x List.mem_cons_self,
        ih fun y hy => h y (List.mem_cons_of_mem _ hy)]
      rfl

theorem mapM_map_self {α β : Type} {write : α → β} {read : β → Option α} {xs : List α}
    (h : ∀ x ∈ xs, read (write x) = some x) : (xs.map write).mapM read = some xs := by
  have hread : (xs.map write).mapM read = some (xs.map id) := mapM_map_of_forall h
  rwa [List.map_id] at hread

theorem asList?_array {α : Type} {write : α → Json} {read : Json → Option α} {xs : List α}
    (h : ∀ x ∈ xs, read (write x) = some x) :
    (Json.array (xs.map write)).asList? read = some xs :=
  mapM_map_self h

variable {members : List (String × Json)}

theorem asMembers?_record (members : List (String × Json)) :
    (record members).asMembers? = some members := by
  show (members.map fun member => (some member.1, member.2)).mapM
    (fun member => member.1.map (·, member.2)) = some members
  exact mapM_map_self fun _ _ => rfl

/-- A field that is there once is found. -/
theorem field?_of_mem (hnodup : (members.map Prod.fst).Nodup) {member : String × Json}
    (hmember : member ∈ members) : field? members member.1 = some (some member.2) := by
  have honly : members.filter (fun other => other.1 == member.1) = [member] := by
    induction members with
    | nil => exact absurd hmember List.not_mem_nil
    | cons first rest ih =>
        rw [List.map_cons, List.nodup_cons] at hnodup
        rcases List.mem_cons.1 hmember with rfl | hrest
        · have hothers : rest.filter (fun other => other.1 == member.1) = [] := by
            refine List.filter_eq_nil_iff.2 fun other hother hsame => hnodup.1 ?_
            exact eq_of_beq hsame ▸ List.mem_map_of_mem hother
          rw [List.filter_cons, if_pos (beq_self_eq_true _), hothers]
        · have hother : ¬ (first.1 == member.1) = true := fun hsame =>
            hnodup.1 (eq_of_beq hsame ▸ List.mem_map_of_mem hrest)
          rw [List.filter_cons, if_neg hother, ih hnodup.2 hrest]
  rw [field?, honly]

/-- The fields of a record are its members. -/
theorem mapM_field? (members : List (String × Json)) (names : List String)
    (hnames : members.map Prod.fst = names) (hnodup : names.Nodup) :
    names.mapM (field? members) = some (members.map fun member => some member.2) := by
  subst hnames
  exact mapM_map_of_forall fun _ hmember => field?_of_mem hnodup hmember

theorem asRecord?_record (members : List (String × Json)) (names : List String)
    (hnames : members.map Prod.fst = names) (hnodup : names.Nodup) :
    (record members).asRecord? names = some (members.map fun member => some member.2) := by
  show ((record members).asMembers?.bind fun members => names.mapM (field? members)) = _
  rw [asMembers?_record, Option.bind_some, mapM_field? members names hnames hnodup]

/-- A condition that holds does not end the reading. -/
theorem guard_bind {α : Type} {p : Prop} [Decidable p] (h : p) (rest : Unit → Option α) :
    (guard p >>= rest) = rest () := by
  have hpassed : (guard p : Option Unit) = some () := if_pos h
  rw [hpassed]
  rfl

theorem asNatural?_natural {n bound : Nat} (h : n ≤ bound) :
    (Json.natural n).asNatural? bound = some n :=
  if_pos h

end Json

-- ================================================================ tokens

/-- The offset fits into a word. -/
def Token.Fits (token : Token) : Prop := token.offset ≤ Json.maxCount

theorem Kind.ofJson?_name (isEmpty : Json → Bool) (kind : Kind) :
    Kind.ofJson? isEmpty (.text kind.name) = some kind := by
  cases kind <;> rfl

/-- A token is read from its fields. -/
theorem Token.ofFields?_fields {token : Token} (h : token.Fits) (isEmpty : Json → Bool) :
    Token.ofFields? isEmpty (.text token.kind.name) (.text token.text) (.natural token.offset)
      = some token := by
  have hoffset := Json.asNatural?_natural h
  simp only [Token.ofFields?, Kind.ofJson?_name, hoffset]
  rfl

theorem Token.ofJson?_toJson {token : Token} (h : token.Fits) :
    Token.ofJson? token.toJson = some token := by
  have hfields := Json.asRecord?_record token.jsonMembers ["kind", "text", "offset"] rfl
    (by decide)
  rw [Token.ofJson?, Token.toJson, hfields]
  exact Token.ofFields?_fields h _

-- =============================================================== reports

/-- The offset and the line fit into their words. -/
structure ScannedToken.Fits (scanned : ScannedToken) : Prop where
  token : scanned.token.Fits
  line : scanned.line ≤ maxLine

/-- The members of a scanned token's record. -/
def ScannedToken.jsonMembers (scanned : ScannedToken) : List (String × Json) :=
  scanned.token.jsonMembers ++ [("line", .natural scanned.line)]

theorem ScannedToken.ofJson?_toJson {scanned : ScannedToken} (h : scanned.Fits) :
    ScannedToken.ofJson? scanned.toJson = some scanned := by
  have hrecord : scanned.toJson = Json.record scanned.jsonMembers := rfl
  have hfields := Json.mapM_field? scanned.jsonMembers ["kind", "text", "offset", "line"] rfl
    (by decide)
  rw [ScannedToken.ofJson?, hrecord, Json.asMembers?_record, Option.bind_eq_bind,
    Option.bind_some]
  -- All members are the token's own, so there is nothing else to be held.
  refine (Json.guard_bind (by simp [ScannedToken.jsonMembers, Token.jsonMembers]) _).trans ?_
  rw [hfields]
  show ((Token.ofFields? ScannedToken.isNothing (.text scanned.token.kind.name)
      (.text scanned.token.text) (.natural scanned.token.offset)).bind fun token =>
    ((Json.natural scanned.line).asNatural? maxLine).bind fun line =>
      some (ScannedToken.mk token line)) = _
  rw [Token.ofFields?_fields h.token, Json.asNatural?_natural h.line]
  rfl

/-- The offset, if there is one, and the line fit into their words. -/
structure Diagnostic.Fits (d : Diagnostic) : Prop where
  offset : ∀ offset ∈ d.offset, offset ≤ Json.maxCount
  line : d.line ≤ maxLine

theorem Diagnostic.ofJson?_toJson {d : Diagnostic} (h : d.Fits) :
    Diagnostic.ofJson? d.toJson = some d := by
  have hoffset : (Json.orNull (d.offset.map .natural)).asOptional? (·.asNatural? Json.maxCount)
      = some d.offset := by
    cases hd : d.offset with
    | none => rfl
    | some offset =>
        show ((Json.natural offset).asNatural? Json.maxCount).map some = _
        rw [Json.asNatural?_natural (h.offset offset hd)]
        rfl
  have hline := Json.asNatural?_natural h.line
  rw [Diagnostic.ofJson?, Diagnostic.toJson,
    Json.asRecord?_record _ ["code", "message", "offset", "line", "recoverable"] rfl (by decide)]
  simp only [Option.bind_eq_bind, Option.bind_some, List.map_cons, List.map_nil, Option.getD_some,
    hoffset, hline]
  rfl

/-- All numbers fit into their words, and the counts are in order. -/
structure Report.Fits (report : Report) : Prop where
  tokens : ∀ scanned ∈ report.tokens, scanned.Fits
  counts : ∀ entry ∈ report.counts, entry.2 ≤ Json.maxCount
  ascending : report.counts.Ascending
  diagnostics : ∀ d ∈ report.diagnostics, d.Fits
  dropped : report.dropped ≤ Json.maxCount
  lines : report.lines ≤ maxLine
  characters : report.characters ≤ Json.maxCount
  elapsedMs : report.elapsedMs ≤ Json.maxCount

/-- The counts are read as the dictionary they are. -/
theorem Report.countsOfJson?_record {counts : Dictionary Nat} (hascending : counts.Ascending)
    (hcounts : ∀ entry ∈ counts, entry.2 ≤ Json.maxCount) :
    Report.countsOfJson? (Json.record (counts.map fun entry => (entry.1, .natural entry.2)))
      = some counts := by
  have hread : (counts.map fun entry => (entry.1, Json.natural entry.2)).mapM
        (fun entry => do some (entry.1, ← entry.2.asNatural? Json.maxCount))
      = some counts := by
    refine Json.mapM_map_self fun entry hentry => ?_
    show ((Json.natural entry.2).asNatural? Json.maxCount).bind _ = _
    rw [Json.asNatural?_natural (hcounts entry hentry)]
    rfl
  rw [Report.countsOfJson?, Json.asMembers?_record, Option.bind_eq_bind, Option.bind_some, hread,
    Option.bind_eq_bind, Option.bind_some, hascending.ofList_eq]

theorem Report.ofJson?_toJson {report : Report} (h : report.Fits) :
    Report.ofJson? report.toJson = some report := by
  have htokens : (Json.array (report.tokens.toList.map ScannedToken.toJson)).asList?
      ScannedToken.ofJson? = some report.tokens.toList :=
    Json.asList?_array fun scanned hscanned =>
      ScannedToken.ofJson?_toJson (h.tokens scanned (Array.mem_toList_iff.1 hscanned))
  have hdiagnostics : (Json.array (report.diagnostics.toList.map Diagnostic.toJson)).asList?
      Diagnostic.ofJson? = some report.diagnostics.toList :=
    Json.asList?_array fun d hd =>
      Diagnostic.ofJson?_toJson (h.diagnostics d (Array.mem_toList_iff.1 hd))
  have hcounts := Report.countsOfJson?_record h.ascending h.counts
  rw [Report.ofJson?, Report.toJson,
    Json.asRecord?_record _ ["source", "tokens", "token_counts", "diagnostics",
      "dropped_diagnostics", "lines", "characters", "completed", "elapsed_ms"] rfl (by decide)]
  simp only [Option.bind_eq_bind, Option.bind_some, List.map_cons, List.map_nil, htokens,
    hdiagnostics, hcounts, Json.asNatural?_natural h.dropped, Json.asNatural?_natural h.lines,
    Json.asNatural?_natural h.characters, Json.asNatural?_natural h.elapsedMs]
  rfl

-- ============================================================== the texts

/-- The texts of a value, in the two layouts. -/
def Json.texts (value : Json) : List String := [value.compact, value.pretty]

theorem Json.parse?_texts (value : Json) : ∀ text ∈ value.texts, parse? text = some value := by
  intro text htext
  simp only [texts, List.mem_cons, List.not_mem_nil, or_false] at htext
  rcases htext with rfl | rfl
  · exact parse?_compact value
  · exact parse?_pretty value

/-- Tokens and reports are read again from their texts, with every field as
it was. -/
theorem records_read_back :
    (∀ token : Token, token.Fits → ∀ text ∈ token.toJson.texts,
      (Json.parse? text).bind Token.ofJson? = some token)
    ∧ ∀ report : Report, report.Fits → ∀ text ∈ report.toJson.texts,
      (Json.parse? text).bind Report.ofJson? = some report := by
  refine ⟨fun token h text htext => ?_, fun report h text htext => ?_⟩
  · rw [Json.parse?_texts _ text htext, Option.bind_some, Token.ofJson?_toJson h]
  · rw [Json.parse?_texts _ text htext, Option.bind_some, Report.ofJson?_toJson h]

/-- A token at the greatest offset whose text is hard to write. -/
def hardToken : Token :=
  ⟨.quote, "\"\\\x00\x08\x1f\x7f\n/\u00e9\ud7ff\uffff😀\"", 18446744073709551615⟩

/-- A report with that token on the last line, and with an error that has
no offset. -/
def hardReport : Report where
  source := ""
  tokens := #[⟨hardToken, 4294967295⟩, ⟨⟨.space, "\t", 0⟩, 0⟩]
  counts := [("", 0), ("\n\"", 18446744073709551615), ("QUOTE", 1)]
  diagnostics := #[⟨⟨"E\\"⟩, "\x0c\r", none, 4294967295, false⟩,
    ⟨⟨""⟩, "", some 18446744073709551615, 0, true⟩]
  dropped := 18446744073709551615
  lines := 4294967295
  characters := 0
  completed := false
  elapsedMs := 18446744073709551615

theorem hard_records_read_back :
    hardToken.Fits ∧ hardReport.Fits
    ∧ (∀ text ∈ hardToken.toJson.texts,
      (Json.parse? text).bind Token.ofJson? = some hardToken)
    ∧ ∀ text ∈ hardReport.toJson.texts,
      (Json.parse? text).bind Report.ofJson? = some hardReport := by
  have htoken : hardToken.Fits := Nat.le_refl Json.maxCount
  have hreport : hardReport.Fits := {
    tokens := by
      intro scanned hscanned
      simp only [hardReport, List.mem_toArray, List.mem_cons, List.not_mem_nil, or_false]
        at hscanned
      rcases hscanned with rfl | rfl
      · exact ⟨htoken, Nat.le_refl maxLine⟩
      · exact ⟨Nat.zero_le _, Nat.zero_le _⟩
    counts := by decide
    ascending := by
      unfold Dictionary.Ascending
      decide
    diagnostics := by
      intro d hd
      simp only [hardReport, List.mem_toArray, List.mem_cons, List.not_mem_nil, or_false] at hd
      rcases hd with rfl | rfl
      · exact ⟨fun _ h => (Option.not_mem_none _ h).elim, Nat.le_refl maxLine⟩
      · exact ⟨fun _ h => by cases h; exact Nat.le_refl Json.maxCount, Nat.zero_le _⟩
    dropped := Nat.le_refl Json.maxCount
    lines := Nat.le_refl maxLine
    characters := Nat.zero_le _
    elapsedMs := Nat.le_refl Json.maxCount }
  exact ⟨htoken, hreport, records_read_back.1 hardToken htoken,
    records_read_back.2 hardReport hreport⟩

end LayeredLexer
