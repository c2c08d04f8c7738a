/-
What a scan logs of errors, and what it reports of them. Errors are logged
where they are raised, a failure by the tokenizer and a fault in the
nesting by the check, and they are recorded by the loop that asks for
tokens. Both tell the same errors, each one once and in the same order.

# One event for each error

An answer to a request raises an error or none, and logs it or none
(`Tells`). That has to be followed through the layers: a failure is logged
when it is met and never again, so the account holds only as long as none
has been met before, and a scan asks no more once it has met one. A token
that is held back behind a fault was checked before and is delivered with
nothing to log.

# The tag

All that is logged while a scan lasts bears the name of its source, if
events are tagged at all; the event that ends the scan says nothing else
about the source, so without tags it does not name it.
-/
import LayeredLexer.Proofs.Scan.Answers
import LayeredLexer.Proofs.Stream.Conservation

namespace LayeredLexer

open Log (Event)

/-- The event tells the error of a fault, as its diagnostic does. The
message is cut to what a log keeps. -/
structure Fault.LoggedAs (fault : Fault) (event : Event) : Prop where
  level : event.level = .error
  code : event.code = fault.diagnostic.code
  message : event.message = Log.clip fault.diagnostic.message
  offset : ∀ offset, fault.diagnostic.offset = some offset →
    event.location.map (·.offset) = some offset
  line : fault.isBalance = true → event.location.bind (·.line) = some fault.diagnostic.line

/-- What an answer logs of errors is what it raises. No failure has been
met unless that is what it raises. -/
inductive Answer.Tells {α : Type} (line : Nat) (answer : Answer α) : Prop
  | calm {a : α} (result : answer.result = .ok a)
      (logged : answer.events.filter Event.isError = [])
      (fine : answer.stream.failure? = none)
  | raised {error : LexError} {event : Event} (result : answer.result = .error error)
      (logged : answer.events.filter Event.isError = [event])
      (told : Fault.LoggedAs ⟨error, line⟩ event)
      (fine : error.isFatal = false → answer.stream.failure? = none)

namespace Nesting

/-- A check tells the line that the stream below it has reached. -/
theorem report_tells (nesting : Nesting) (error : BalanceError) (offset line : Nat) :
    Fault.LoggedAs ⟨.balance error, line⟩ (nesting.report error offset line) where
  level := rfl
  code := rfl
  message := rfl
  offset found h := by
    have hoffset : error.offset? = some found := h
    simp [report, Event.noting, Event.located, hoffset]
  line _ := rfl

end Nesting

namespace Stream

variable {s inner : Stream} {line : Nat}

-- ================================================================ the layers

/-- A tokenizer logs the failure that it meets, when it meets it. -/
theorem tells_tokenizer {t : Tokenizer} (hfine : t.failure? = none) (line : Nat) :
    (tokenizer t).peek.Tells line := by
  by_cases hunread : t.front = .unread
  · have hpeek : (tokenizer t).peek = ⟨t.advance.look, tokenizer t.advance, t.advance.report⟩ := by
      simp [peek, Tokenizer.peek, hunread]
    rw [hpeek]
    cases hfront : t.advance.front with
    | failed failure =>
        have hlook : t.advance.look = .error (.failure failure) := by
          rw [Tokenizer.look, hfront]
        have hreport : t.advance.report
            = [(Event.error failure.code failure.message).located failure.offset none] := by
          rw [Tokenizer.report, hfront]
        have hlogged : t.advance.report.filter Event.isError = t.advance.report := by
          rw [hreport]
          rfl
        have htold : Fault.LoggedAs ⟨.failure failure, line⟩
            ((Event.error failure.code failure.message).located failure.offset none) := by
          refine ⟨rfl, rfl, rfl, fun offset hoffset => ?_, fun hbalance => ?_⟩
          · exact hoffset
          · cases hbalance
        refine .raised hlook (hlogged.trans hreport) htold fun hfatal => ?_
        cases hfatal
    | _ =>
        refine .calm (by rw [Tokenizer.look, hfront]) ?_ ?_
        · rw [Tokenizer.report, hfront]
          rfl
        · show t.advance.failure? = none
          rw [Tokenizer.failure?, hfront]
  · have hpeek : (tokenizer t).peek = ⟨t.look, tokenizer t, []⟩ := by
      cases hfront : t.front <;> simp_all [peek, Tokenizer.peek]
    rw [hpeek]
    cases hfront : t.front with
    | failed failure => cases hfine.symm.trans (Tokenizer.failure?_eq_some.2 hfront)
    | _ => exact .calm (by rw [Tokenizer.look, hfront]) rfl hfine

/-- A line counter passes on what is logged below it. -/
theorem tells_lines {count : LineCount} (hfine : inner.failure? = none)
    (h : inner.peek.Tells line) : (lines count inner).peek.Tells line := by
  obtain ⟨pending, reached⟩ := count
  cases pending with
  | some token => exact .calm rfl rfl hfine
  | none =>
      cases h with
      | @calm shown result logged fine =>
          cases shown with
          | none =>
              rw [peek_lines_end result]
              exact .calm rfl logged fine
          | some token =>
              rw [peek_lines_token result]
              exact .calm rfl logged ((failure?_drop _).trans fine)
      | raised result logged told fine =>
          rw [peek_lines_pass (by simp [result])]
          exact .raised result logged told fine

/-- A check logs a fault when it finds it, with the line reached below. -/
theorem tells_judge (outcome : Option Token) {verdict : Nesting × Option BalanceError}
    {events : List Event} (hfine : inner.failure? = none)
    (hlogged : events.filter Event.isError = []) :
    (judge outcome verdict inner events).Tells inner.line := by
  obtain ⟨nesting, error⟩ := verdict
  cases error with
  | none => exact .calm rfl hlogged hfine
  | some error =>
      refine .raised rfl ?_ (nesting.report_tells error inner.offset inner.line) fun _ => hfine
      show (events ++ [nesting.report error inner.offset inner.line]).filter Event.isError = _
      rw [List.filter_append, hlogged]
      rfl

theorem tells_balance {nesting : Nesting} (hfine : inner.failure? = none)
    (h : ∀ line, inner.peek.Tells line) :
    (balance nesting inner).peek.Tells (balance nesting inner).peek.stream.line := by
  cases hpending : nesting.pending with
  | some token =>
      rw [peek_balance_held hpending]
      exact .calm rfl rfl hfine
  | none =>
      cases h inner.peek.stream.line with
      | @calm shown result logged fine =>
          cases shown with
          | none =>
              rw [peek_balance_end hpending result, judge_stream]
              exact tells_judge none fine logged
          | some token =>
              rw [peek_balance_token hpending result, judge_stream]
              exact tells_judge (some token) ((failure?_drop _).trans fine) logged
      | raised result logged told fine =>
          rw [peek_balance_error result hpending]
          exact .raised rfl logged told fine

end Stream

-- ============================================================== the requests

namespace Scan

variable {preferences : ScanPreferences} {s : Stream}

/-- The stack that a scan asks: a check over a line counter over a
tokenizer. -/
structure Asked (s : Stream) : Prop where
  kinds : s.kinds = [.balance, .lines]
  bottom : s.Bottom fun _ => True

theorem asked_checker (source : CharSource) : Asked (checker source) := ⟨rfl, trivial⟩

theorem Asked.consume (h : Asked s) : Asked s.consume.stream :=
  ⟨s.kinds_consume.trans h.kinds, h.bottom.consume⟩

theorem Asked.exists_layers (h : Asked s) :
    ∃ nesting count t, s = .balance nesting (.lines count (.tokenizer t)) := by
  obtain ⟨hkinds, hbottom⟩ := h
  cases s with
  | balance nesting below =>
      cases below with
      | lines count below =>
          cases below with
          | tokenizer t => exact ⟨nesting, count, t, rfl⟩
          | script s => exact hbottom.elim
          | _ => cases hkinds
      | _ => cases hkinds
  | _ => cases hkinds

theorem Asked.tells (h : Asked s) (hfine : s.failure? = none) :
    s.peek.Tells s.peek.stream.line := by
  obtain ⟨nesting, count, t, rfl⟩ := h.exists_layers
  exact Stream.tells_balance hfine fun line =>
    Stream.tells_lines hfine (Stream.tells_tokenizer hfine line)

/-- A request logs the error that it raises, and no failure was met when
another request follows. -/
theorem Asked.consume_logged (h : Asked s) (preferences : ScanPreferences)
    (hfine : s.failure? = none) :
    List.Forall₂ Fault.LoggedAs (fault? s.consume).toList
        (s.consume.events.filter Event.isError)
      ∧ (goesOn preferences s.consume.result = true → s.consume.stream.failure? = none) := by
  cases h.tells hfine with
  | @calm shown result logged fine =>
      cases shown with
      | none =>
          rw [Stream.consume_of_peek_end result, logged]
          exact ⟨.nil, nofun⟩
      | some token =>
          rw [Stream.consume_of_peek_token result, logged]
          exact ⟨.nil, fun _ => (Stream.failure?_drop _).trans fine⟩
  | @raised error event result logged told fine =>
      have hend : error ≠ .endOfInput := by
        rintro rfl
        rcases Stream.peek_error h.bottom result with hfatal | hbalance
        · cases hfatal
        · cases hbalance
      have hfault : fault? (⟨.error error, s.peek.stream, s.peek.events⟩ : Answer Token)
          = some ⟨error, s.peek.stream.line⟩ := fault?_eq_some_iff.2 ⟨rfl, hend, rfl⟩
      rw [Stream.consume_of_peek_error result, hfault, logged]
      refine ⟨.cons told .nil, fun hgo => fine ?_⟩
      exact isFatal_of_not_final (goesOn_error_iff.1 hgo).2

/-- All requests together log the errors that a scan meets. -/
theorem Asked.answers_logged (h : Asked s) (preferences : ScanPreferences)
    (hfine : s.failure? = none) :
    List.Forall₂ Fault.LoggedAs (faults preferences s)
      (((answers preferences s).flatMap (·.events)).filter Event.isError) := by
  induction s using answers.induct preferences with
  | case1 s hgo ih =>
      obtain ⟨hlogged, hlater⟩ := h.consume_logged preferences hfine
      rw [faults_of_goesOn hgo, answers_of_goesOn hgo, List.flatMap_cons, List.filter_append]
      exact List.rel_append hlogged (ih h.consume (hlater hgo))
  | case2 s hstop =>
      have hstop := eq_false_of_ne_true hstop
      obtain ⟨hlogged, -⟩ := h.consume_logged preferences hfine
      rw [faults_of_stops hstop, answers_of_stops hstop, List.flatMap_cons, List.flatMap_nil,
        List.append_nil]
      exact hlogged

end Scan

-- =============================================================== the session

namespace Log.Session

variable (session : Session) (event : Event)

/-- Recording changes nothing in how a session tags. -/
theorem tag_record : (session.record event).tag = session.tag := rfl

theorem tag_recordAll (events : Array Event) : (session.recordAll events).tag = session.tag := rfl

theorem events_record :
    (session.record event).events.toList = session.events.toList ++ [session.tag event] := by
  simp [record, recordBare]

theorem events_recordAll (events : Array Event) :
    (session.recordAll events).events.toList
      = session.events.toList ++ events.toList.map session.tag := by
  simp [recordAll]

/-- A session that works on a source names it in every event, if it tags
events. -/
theorem tag_source (hsource : session.source = some name) (htagged : session.tagged = true) :
    (session.tag event).context.get? "source" = some name := by
  rw [tag, hsource]
  dsimp only
  rw [if_pos htagged]
  exact Dictionary.get?_insert_self "source" name event.context

theorem tag_untagged (htagged : session.tagged = false) : session.tag event = event := by
  unfold tag
  split
  next => rw [if_neg (htagged ▸ Bool.false_ne_true)]
  next => rfl

/-- The tag is in the context, and what an event tells of a fault is not. -/
theorem tag_eq : ∃ context, session.tag event = { event with context := context } := by
  unfold tag
  split
  next => split <;> exact ⟨_, rfl⟩
  next => exact ⟨_, rfl⟩

theorem loggedAs_tag {fault : Fault} {event : Event} (h : fault.LoggedAs event) :
    fault.LoggedAs (session.tag event) := by
  obtain ⟨context, htag⟩ := session.tag_eq event
  rw [htag]
  exact ⟨h.level, h.code, h.message, h.offset, h.line⟩

theorem filter_tag (events : List Event) :
    (events.map session.tag).filter Event.isError
      = (events.filter Event.isError).map session.tag := by
  rw [List.filter_map]
  congr 1
  apply List.filter_congr
  intro event _
  show (session.tag event).isError = event.isError
  rw [Event.isError, Event.isError, tag_level]

end Log.Session

namespace Scan

variable (name : String) (source : CharSource) (preferences : ScanPreferences)
  (session : Log.Session)

/-- The events of a scan: that it starts, what its requests log, and that it
is over. -/
def emitted : List Event :=
  (Event.info "Starting scan").noting "source" name
    :: (answers preferences (checker source)).flatMap (·.events)
      ++ [completion (scan name source preferences session).1]

/-- They are tagged with the source of the scan. -/
theorem events_scan :
    (scan name source preferences session).2.events.toList
      = session.events.toList
        ++ (emitted name source preferences session).map (session.about (some name)).tag := by
  have hsession : (scan name source preferences session).2
      = ((((session.about (some name)).record
            ((Event.info "Starting scan").noting "source" name)).recordAll
          (run preferences (checker source) (.initial name) #[]).2.2).record
        (completion (scan name source preferences session).1)).about session.source := rfl
  have hbefore : (session.about (some name)).events = session.events := rfl
  rw [hsession, emitted, run_eq]
  show Array.toList (Log.Session.events (.record _ _)) = _
  rw [Log.Session.events_record, Log.Session.events_recordAll, Log.Session.events_record,
    Log.Session.tag_recordAll, Log.Session.tag_record, hbefore]
  simp

/-- The events that tell errors are those of the requests. -/
theorem errors_emitted :
    (emitted name source preferences session).filter Event.isError
      = ((answers preferences (checker source)).flatMap (·.events)).filter Event.isError := by
  rw [emitted, List.filter_append, List.filter_cons_of_neg (by rintro ⟨⟩)]
  have hlast : [completion (scan name source preferences session).1].filter Event.isError = [] :=
    rfl
  rw [hlast, List.append_nil]

/-- The event that ends a scan says nothing about the source. -/
theorem completion_source (report : Report) :
    (completion report).context.get? "source" = none := by
  rw [completion]
  simp only [Event.noting]
  rw [Dictionary.get?_insert_of_ne (by decide), Dictionary.get?_insert_of_ne (by decide),
    Dictionary.get?_insert_of_ne (by decide)]
  rfl

/-- All of the events name the source exactly if events are tagged. -/
theorem emitted_source_iff :
    (∀ event ∈ (emitted name source preferences session).map (session.about (some name)).tag,
        event.context.get? "source" = some name)
      ↔ session.tagged = true := by
  constructor
  · intro hall
    by_contra htagged
    -- the last event names it by the tag alone
    let last := completion (scan name source preferences session).1
    have hmem : last ∈ emitted name source preferences session :=
      List.mem_append_right _ (List.mem_singleton.2 rfl)
    have hlast := hall _ (List.mem_map.2 ⟨last, hmem, rfl⟩)
    rw [Log.Session.tag_untagged _ _ (Bool.not_eq_true _ ▸ htagged), completion_source] at hlast
    cases hlast
  · intro htagged event hmem
    obtain ⟨plain, -, rfl⟩ := List.mem_map.1 hmem
    exact Log.Session.tag_source (session.about (some name)) plain rfl htagged

end Scan

/-- A scan adds events to the log. The errors among them are those that it
meets, one each and in their order: as many as its report keeps and drops,
and the report keeps the first ones. The source is the one before again,
and all of the events name that of the scan exactly if events are tagged. -/
theorem log_tells_report (name : String) (source : CharSource) (preferences : ScanPreferences)
    (session : Log.Session) :
    let report := (scan name source preferences session).1
    let later := (scan name source preferences session).2
    let faults := Scan.faults preferences (Scan.checker source)
    ∃ emitted, later.events.toList = session.events.toList ++ emitted
      ∧ List.Forall₂ Fault.LoggedAs faults (emitted.filter Event.isError)
      ∧ (emitted.filter Event.isError).length = report.diagnostics.size + report.dropped
      ∧ report.diagnostics.toList = (faults.take preferences.maxDiagnostics).map Fault.diagnostic
      ∧ ((∀ event ∈ emitted, event.context.get? "source" = some name) ↔ session.tagged = true)
      ∧ later.source = session.source := by
  intro report later faults
  have hlogged := (Scan.asked_checker source).answers_logged preferences rfl
  rw [← Scan.errors_emitted name source preferences session] at hlogged
  have htold : List.Forall₂ Fault.LoggedAs faults
      (((Scan.emitted name source preferences session).map
        (session.about (some name)).tag).filter Event.isError) := by
    rw [Log.Session.filter_tag]
    exact List.forall₂_map_right_iff.2 (hlogged.imp fun _ _ => Log.Session.loggedAs_tag _)
  have hreport : report = _ := Scan.report_eq name source preferences session
  refine ⟨_, Scan.events_scan name source preferences session, htold, ?_, ?_,
    Scan.emitted_source_iff name source preferences session, rfl⟩
  · rw [← htold.length_eq, hreport]
    simp [Scan.account, faults]
    omega
  · rw [hreport]
    rfl

/-- Without tags there are events of a scan that do not name its source. -/
theorem untagged_scan :
    ¬ ∀ event ∈ (scan "a" (.ofString "x") ⟨false, false, 100⟩ { tagged := false }).2.events.toList,
      event.context.get? "source" = some "a" := by
  decide +kernel

end LayeredLexer
