/-
What a run prints that is asked for JSON. Behind the lines of logged
events, which go to the output only if logging is asked to be written and
the events are no errors, it prints one JSON document and nothing else.
The document holds the report, if there was an input, and the rules of
the names, if there were any, and both can be read back from it.

# The report comes back

A report is read back if its numbers fit into their words, and those of a
scan do as soon as the source does (`Scan.fits`). A source that is opened
is within the limit of size (`Entry.Opens.size_le`), and a device pays
with one for the seam at its end and one for the end itself.
-/
import LayeredLexer.Proofs.CommandLine.ExitCode
import LayeredLexer.Proofs.Scan.Fits

namespace LayeredLexer

-- ================================================================= channels

/-- What is written to a channel is the texts of its lines. -/
theorem Channel.textOf_eq (channel : Channel) (lines : List Line) :
    channel.textOf lines
      = .join ((lines.filter (·.channel = channel)).map fun line => line.text ++ "\n") := by
  suffices hbehind : ∀ out : String,
      lines.foldl (fun out line => if line.channel = channel then out ++ line.text ++ "\n" else out)
          out
        = out ++ .join ((lines.filter (·.channel = channel)).map fun line => line.text ++ "\n") by
    rw [textOf, hbehind, String.empty_append]
  intro out
  induction lines generalizing out with
  | nil => exact (String.append_empty).symm
  | cons line lines ih =>
      rw [List.foldl_cons, ih]
      by_cases hchannel : line.channel = channel
      · rw [if_pos hchannel, List.filter_cons_of_pos (by simpa using hchannel), List.map_cons,
          String.join_cons, String.append_assoc, String.append_assoc, String.append_assoc]
      · rw [if_neg hchannel, List.filter_cons_of_neg (by simpa using hchannel)]

-- ============================================================ logged events

namespace Log.Preferences

/-- Whether an event is written to the output. -/
def shows (preferences : Preferences) (event : Event) : Bool :=
  (preferences.structured || preferences.console) && event.level.passes preferences.threshold
    && !event.isError

/-- The text that an event is written as. -/
def textOf (preferences : Preferences) (timestamp : String) (event : Event) : String :=
  if preferences.structured then (event.toJson timestamp).compact else event.line

/-- The texts that events leave on the output. -/
def shown (preferences : Preferences) (timestamp : String) (events : Array Event) : List String :=
  (events.toList.filter preferences.shows).map (preferences.textOf timestamp)

variable {preferences : Preferences}

/-- An event that is written goes to the output if it is shown there. -/
theorem filter_line? (preferences : Preferences) (timestamp : String) (event : Event) :
    (preferences.line? timestamp event).filter (·.channel = .output)
      = if preferences.shows event then some ⟨.output, preferences.textOf timestamp event⟩
        else none := by
  unfold line? shows textOf
  cases hpasses : event.level.passes preferences.threshold with
  | false => simp
  | true =>
      cases preferences.structured with
      | true => cases hlevel : event.level <;> simp [channel, Event.isError, hlevel]
      | false =>
          cases preferences.console with
          | true => cases hlevel : event.level <;> simp [channel, Event.isError, hlevel]
          | false => simp

/-- The lines on the output are the events that are shown. -/
theorem output_lines (preferences : Preferences) (timestamp : String) (events : Array Event) :
    ((preferences.lines timestamp events).filter (·.channel = .output)).map (·.text)
      = preferences.shown timestamp events := by
  unfold lines shown
  rw [List.filter_filterMap,
    List.filterMap_congr fun event _ => preferences.filter_line? timestamp event]
  induction events.toList with
  | nil => rfl
  | cons event events ih =>
      by_cases hshows : preferences.shows event = true
      · rw [List.filterMap_cons, if_pos hshows, List.filter_cons_of_pos hshows, List.map_cons, ih]
        rfl
      · rw [List.filterMap_cons, if_neg hshows, List.filter_cons_of_neg hshows, ih]

/-- Nothing is shown if nothing is written, or errors only. -/
theorem shown_eq_nil (h : preferences.structured = false ∧ preferences.console = false
      ∨ preferences.threshold = .error) (timestamp : String) (events : Array Event) :
    preferences.shown timestamp events = [] := by
  have hnone : events.toList.filter preferences.shows = [] := by
    refine List.filter_eq_nil_iff.2 fun event _ hshows => ?_
    unfold shows at hshows
    rcases h with ⟨hstructured, hconsole⟩ | hthreshold
    · rw [hstructured, hconsole] at hshows
      cases hshows
    · rw [hthreshold] at hshows
      unfold Event.isError at hshows
      cases hlevel : event.level <;> simp [hlevel, Level.passes, Level.rank] at hshows
  rw [shown, hnone, List.map_nil]

end Log.Preferences

-- ================================================================== sources

theorem length_bytes (bytes : ByteArray) : bytes.toList.length = bytes.size := by
  suffices hloop : ∀ start read,
      (ByteArray.toList.loop bytes start read).length = read.length + (bytes.size - start) from
    (hloop 0 []).trans (Nat.zero_add _)
  intro start read
  fun_induction ByteArray.toList.loop bytes start read with
  | case1 start read hmore ih =>
      rw [ih, List.length_cons]
      omega
  | case2 start read hover =>
      rw [List.length_reverse]
      omega

theorem Content.size_toByteArray (content : Content) :
    content.toByteArray.size = content.size := by
  cases content with
  | bytes content => rfl
  | zeros count => exact Array.size_replicate

/-- A source that is opened is within the limit, but for its end. -/
theorem Entry.Opens.size_le {entry : Entry} {source : CharSource} (h : entry.Opens source) :
    source.size ≤ maxFileSize + 2 := by
  cases h with
  | file content room =>
      have hlength := length_bytes content.toByteArray
      rw [content.size_toByteArray] at hlength
      show 0 + (content.toByteArray.toList.length + 1 + 0 + 1) ≤ _
      omega
  | directory room => exact Nat.le_add_left _ _

/-- So the report of its scan can be read back. -/
theorem Entry.Opens.fits {entry : Entry} {source : CharSource} (h : entry.Opens source)
    (name : String) (preferences : ScanPreferences) (session : Log.Session) :
    (scan name source preferences session).1.Fits := by
  apply Scan.fits
  have hsize := h.size_le
  unfold maxFileSize at hsize
  unfold Json.maxCount
  omega

namespace CommandLine

-- ============================================================= the document

/-- What the document of a run holds: the report of the scan, if there is
an input, and below it an entry for each name that was looked up, with its
rule or with null. -/
structure Documents (setting : Setting) (options : Options) (config : Config)
    (members : List (String × Json)) : Prop where
  /-- What is there and what is not. -/
  names : members.map Prod.fst
    = (if options.input.isSome then ["report"] else [])
      ++ (if options.lookups.isEmpty then [] else ["lookups"])
  report : ∀ path ∈ options.input, ∃ source value, (setting.files path).Opens source
    ∧ ("report", value) ∈ members
    ∧ Report.ofJson? value = some (scan path source config.scan {}).1
  lookups : options.lookups ≠ [] → ∃ store logged entries,
    RuleStore.ofTable config.rules = .ok (store, logged)
      ∧ ("lookups", Json.record entries) ∈ members
      ∧ (entries.map Prod.fst).Nodup
      ∧ ∀ name value, (name, value) ∈ entries
        ↔ name ∈ options.lookups
          ∧ ∃ rule, store.get name = .ok rule ∧ value = Json.orNull (rule.map Json.text)

/-- Names that were looked up are found, each with its rule. -/
theorem LooksUp.mem_iff {rules : Dictionary String} {names : List String} {lookups : Lookups}
    (h : LooksUp rules names lookups) (hnames : names ≠ []) :
    ∃ store logged, RuleStore.ofTable rules = .ok (store, logged)
      ∧ lookups.Ascending
      ∧ ∀ name rule, (name, rule) ∈ lookups ↔ name ∈ names ∧ store.get name = .ok rule := by
  cases h with
  | none => exact absurd rfl hnames
  | found asked load lookup =>
      obtain ⟨hascending, hget⟩ := get?_of_lookupAll lookup
      exact ⟨_, _, load, hascending, fun name rule => hascending.mem_iff.trans (hget name rule)⟩

/-- Something is found if a name was looked up. -/
theorem LooksUp.isEmpty_eq {rules : Dictionary String} {names : List String} {lookups : Lookups}
    (h : LooksUp rules names lookups) : lookups.isEmpty = names.isEmpty := by
  cases h with
  | none => rfl
  | found asked load lookup =>
      obtain ⟨name, hname⟩ := List.exists_mem_of_ne_nil _ asked
      obtain ⟨p, hp⟩ := exists_lookupAll_iff.1 ⟨_, lookup⟩ name hname
      obtain ⟨rule, hrule⟩ := (RuleStore.exists_get_iff _ name).2 ⟨p, hp⟩
      have hfound := ((get?_of_lookupAll lookup).2 name rule).2 ⟨hname, hrule⟩
      have hlookups : lookups ≠ [] := by
        rintro rfl
        cases hfound
      rw [List.isEmpty_eq_false_iff.2 hlookups, List.isEmpty_eq_false_iff.2 asked]

/-- The entry of a name. -/
def lookupJson (entry : String × Option String) : String × Json :=
  (entry.1, Json.orNull (entry.2.map Json.text))

namespace Findings

/-- The members of the document. -/
def members (findings : Findings) : List (String × Json) :=
  findings.report.toList.map (fun report => ("report", report.toJson))
    ++ if findings.lookups.isEmpty then []
      else [("lookups", Json.record (findings.lookups.map lookupJson))]

theorem toJson_eq (findings : Findings) : findings.toJson = Json.record findings.members := rfl

/-- The document holds what was found. -/
theorem documents_members {setting : Setting} {options : Options} {config : Config}
    {findings : Findings}
    (hreport : Reports setting.files config.scan options.input findings.report)
    (hlookups : LooksUp config.rules options.lookups findings.lookups) :
    Documents setting options config findings.members := by
  obtain ⟨report, lookups⟩ := findings
  refine ⟨?names, ?report, ?lookups⟩
  case names =>
    unfold members
    dsimp only at hreport hlookups ⊢
    rw [List.map_append, hlookups.isEmpty_eq]
    congr 1
    · generalize options.input = input at hreport
      cases hreport <;> rfl
    · split <;> rfl
  case report =>
    intro path hpath
    dsimp only at hreport
    rw [Option.mem_def.1 hpath] at hreport
    cases hreport with
    | @scan path source hopens =>
        exact ⟨source, _, hopens, List.mem_append_left _ List.mem_cons_self,
          Report.ofJson?_toJson (hopens.fits ..)⟩
  case lookups =>
    intro hnames
    obtain ⟨store, logged, hload, hascending, hmem⟩ := hlookups.mem_iff hnames
    refine ⟨store, logged, lookups.map lookupJson, hload, List.mem_append_right _ ?_, ?_, ?_⟩
    · have hsome : lookups.isEmpty = false :=
        hlookups.isEmpty_eq.trans (List.isEmpty_eq_false_iff.2 hnames)
      show _ ∈ if lookups.isEmpty = true then _ else _
      rw [hsome]
      exact List.mem_cons_self
    · rw [List.map_map]
      refine List.pairwise_map.2 (hascending.imp ?_)
      intro a b hless hsame
      have hsame : a.1 = b.1 := hsame
      exact String.lt_irrefl b.1 (hsame ▸ hless)
    · intro name value
      rw [List.mem_map]
      constructor
      · intro h
        obtain ⟨⟨name, rule⟩, hentry, ⟨⟩⟩ := h
        obtain ⟨hname, hrule⟩ := (hmem name rule).1 hentry
        exact ⟨hname, rule, hrule, rfl⟩
      · intro h
        obtain ⟨hname, rule, hrule, rfl⟩ := h
        exact ⟨(name, rule), (hmem name rule).2 ⟨hname, hrule⟩, rfl⟩

/-- The document is written as one line behind those of the events. -/
theorem output_after (findings : Findings) (preferences : Log.Preferences) (timestamp : String)
    (events : Array Log.Event) :
    ((findings.outcome true).after (preferences.lines timestamp events)).output
      = .join ((preferences.shown timestamp events).map (· ++ "\n"))
        ++ (findings.toJson.pretty ++ "\n") := by
  have hdocument : (findings.outcome true).lines = [⟨.output, findings.toJson.pretty⟩] := rfl
  have hevents : ((preferences.lines timestamp events).filter (·.channel = .output)).map
      (fun line => line.text ++ "\n") = (preferences.shown timestamp events).map (· ++ "\n") := by
    rw [← preferences.output_lines, List.map_map]
    rfl
  rw [Outcome.output, Outcome.after, hdocument, Channel.textOf_eq, List.filter_append,
    List.map_append, String.join_append, hevents]
  exact congrArg (_ ++ ·) (String.join_cons.trans String.append_empty)

end Findings

/-- What a run comes to that has findings. -/
theorem run_of_findings {setting : Setting} {arguments : List String} {options : Options}
    {config : Config} {findings : Findings} {later : Log.Session}
    (hparse : parseOptions arguments = .ok (.perform options))
    (hconfig : configure setting options = .ok config)
    (hwork : work setting options config (Log.System.openingSession config.logging)
      = (.ok findings, later)) :
    run setting arguments
      = (findings.outcome options.json).after
          (config.logging.lines setting.timestamp later.events) := by
  have hsome : arguments ≠ [] := by
    intro hnone
    subst hnone
    cases hparse
  unfold run
  rw [if_neg (by simpa using hsome), hparse]
  exact perform_of_findings hconfig hwork

/-- A run that is asked for JSON and has come to its result prints the
events that logging shows on the output, in the order in which they were
logged, and behind them one JSON document, which holds the report that was
made and the rules of the names that were looked up. If events are not
written, or errors only, the document is all that it prints. -/
theorem output_json {setting : Setting} {arguments : List String} {options : Options}
    {config : Config} {findings : Findings} {later : Log.Session}
    (hparse : parseOptions arguments = .ok (.perform options)) (hjson : options.json = true)
    (hconfig : configure setting options = .ok config)
    (hwork : work setting options config (Log.System.openingSession config.logging)
      = (.ok findings, later)) :
    let shown := config.logging.shown setting.timestamp later.events
    (∃ document members,
      (run setting arguments).output = .join (shown.map (· ++ "\n")) ++ (document ++ "\n")
        ∧ Json.parse? document = some (Json.record members)
        ∧ Documents setting options config members)
      ∧ (config.logging.structured = false ∧ config.logging.console = false
          ∨ config.logging.threshold = .error → shown = []) := by
  intro shown
  refine ⟨⟨findings.toJson.pretty, findings.members, ?_, ?_, ?_⟩,
    fun h => Log.Preferences.shown_eq_nil h _ _⟩
  · rw [run_of_findings hparse hconfig hwork, hjson]
    exact findings.output_after config.logging setting.timestamp later.events
  · rw [Json.parse?_pretty, findings.toJson_eq]
  · have hdone := (work_eq_ok_iff setting options config
      (Log.System.openingSession config.logging) findings).1 (congrArg Prod.fst hwork)
    exact Findings.documents_members hdone.1 hdone.2

/-- A setting with one file, in which nothing is preferred. -/
def plainSetting : Setting where
  program := "lexer"
  environment _ := none
  files path := if path = "a.txt" then .file (.bytes ⟨#[0x78, 0x29]⟩) else .unreachable .missing
  timestamp := ""

/-- The options to scan it, and to look up a name. -/
def plainOptions : Options := { input := some "a.txt", json := true, lookups := ["a.b"] }

/-- The configuration that is used then. -/
def plainConfig : Config := .default plainSetting.environment

theorem output_json_plain :
    parseOptions ["a.txt", "--json", "--lookup", "a.b"] = .ok (.perform plainOptions)
      ∧ plainOptions.json = true
      ∧ configure plainSetting plainOptions = .ok plainConfig
      ∧ ∃ findings later, work plainSetting plainOptions plainConfig
            (Log.System.openingSession plainConfig.logging) = (.ok findings, later)
          ∧ ∃ document members,
            (run plainSetting ["a.txt", "--json", "--lookup", "a.b"]).output
                = .join [] ++ (document ++ "\n")
              ∧ Json.parse? document = some (Json.record members)
              ∧ Documents plainSetting plainOptions plainConfig members := by
  have hparse : parseOptions ["a.txt", "--json", "--lookup", "a.b"]
      = .ok (.perform plainOptions) := by
    rfl
  have hconfig : configure plainSetting plainOptions = .ok plainConfig := by
    rfl
  have hreport : Reports plainSetting.files plainConfig.scan (some "a.txt") _ :=
    .scan (.file _ (by decide))
  have hload : RuleStore.ofTable plainConfig.rules = .ok (.empty, #[]) := by
    cbv
  have hlookup : lookupAll .empty ["a.b"] = .ok [("a.b", none)] := by
    cbv
  have hlookups : LooksUp plainConfig.rules ["a.b"] [("a.b", none)] :=
    .found (List.cons_ne_nil _ _) hload hlookup
  have hdone := (work_eq_ok_iff plainSetting plainOptions plainConfig
    (Log.System.openingSession plainConfig.logging) ⟨_, _⟩).2 ⟨hreport, hlookups⟩
  have hwork : work plainSetting plainOptions plainConfig
      (Log.System.openingSession plainConfig.logging) = (.ok _, _) := Prod.ext hdone rfl
  obtain ⟨⟨document, members, hprinted, hread, hholds⟩, hsilent⟩ :=
    output_json hparse rfl hconfig hwork
  rw [hsilent (.inl ⟨rfl, rfl⟩), List.map_nil] at hprinted
  exact ⟨hparse, rfl, hconfig, _, _, hwork, document, members, hprinted, hread, hholds⟩

/-- A setting without files, in which events are written as plain lines. -/
def chatty : Setting where
  program := "lexer"
  environment name := if name = "CONTRACT_LEXER_LOGGING_ENABLE_CONSOLE" then some "true" else none
  files _ := .unreachable .missing
  timestamp := ""

/-- Lines of events stand before the document there, so that what is
printed is not one JSON document. -/
theorem output_not_json_chatty :
    parseOptions ["--lookup", "a", "--json"] = .ok (.perform { json := true, lookups := ["a"] })
      ∧ (run chatty ["--lookup", "a", "--json"]).exitCode = 0
      ∧ (run chatty ["--lookup", "a", "--json"]).output
        = "[INFO] I004 - Global logging system initialized\n"
          ++ "[INFO] I060 - Pattern rules loaded\n"
          ++ "\x7b\n  \"lookups\": \x7b\n    \"a\": null\n  \x7d\n\x7d\n"
      ∧ Json.parse? (run chatty ["--lookup", "a", "--json"]).output = none := by
  have hprinted : (run chatty ["--lookup", "a", "--json"]).output
      = "[INFO] I004 - Global logging system initialized\n"
        ++ "[INFO] I060 - Pattern rules loaded\n"
        ++ "\x7b\n  \"lookups\": \x7b\n    \"a\": null\n  \x7d\n\x7d\n" := by
    cbv
  refine ⟨rfl, by decide +kernel, hprinted, ?_⟩
  rw [hprinted, ← Option.isNone_iff_eq_none]
  decide +kernel

end CommandLine

end LayeredLexer
