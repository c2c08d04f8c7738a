/-
How a run ends. It exits with zero if help was asked for, or if all that
was asked for could be done and the scan met no error, kept or dropped;
else with one.

# One question for each step

Each step of a run either has a result or ends the run. Which results a
step has is said without what was logged before it (`Entry.Opens`,
`Loads`, `Reports`, `LooksUp`), so the steps can be put together in any
session (`step_eq_ok_iff`): the work has the findings that its two steps
have (`work_eq_ok_iff`). Only the last step looks at the report, and it
looks at the number of its errors, which the limit of errors leaves as it
is.
-/
import LayeredLexer.CommandLine.Run
import LayeredLexer.Proofs.Nesting.Scan
import LayeredLexer.Proofs.Rule.Reachable
import LayeredLexer.Proofs.Rule.Table

namespace LayeredLexer

-- ================================================================ one step

/-- What comes behind a step has a result if the step has one and goes on
to it. What a step does to the session is another matter. -/
theorem step_eq_ok_iff {ε ε' α β σ : Type} (step : Except ε α × σ) {whole : Except ε' β × σ}
    (goOn : α → σ → Except ε' β × σ)
    (hok : ∀ a later, step = (.ok a, later) → whole = goOn a later)
    (herror : ∀ error later, step = (.error error, later) → ∀ b, whole.1 ≠ .ok b) (b : β) :
    whole.1 = .ok b ↔ ∃ a, step.1 = .ok a ∧ (goOn a step.2).1 = .ok b := by
  obtain ⟨result, later⟩ := step
  cases result with
  | error error =>
      constructor
      · intro h
        exact absurd h (herror error later rfl b)
      · intro h
        obtain ⟨a, ha, -⟩ := h
        cases ha
  | ok a =>
      rw [hok a later rfl]
      constructor
      · intro h
        exact ⟨a, rfl, h⟩
      · intro h
        obtain ⟨other, hother, hb⟩ := h
        cases hother
        exact hb

-- ======================================================= opening and scanning

namespace Entry

/-- What can be opened, and as which source: files and directories within
the limit of size. -/
inductive Opens : Entry → CharSource → Prop
  | file (content : Content) (room : content.size ≤ maxFileSize) :
      Opens (.file content) (.ofDevice (.ofBytes content.toByteArray.toList))
  | directory {size : Nat} (room : size ≤ maxFileSize) :
      Opens (.directory size) (.ofDevice (.failing .isADirectory))

theorem openSized_eq_ok_iff {path : String} {size : Nat} {device : Unit → Device}
    {session : Log.Session} {source : CharSource} :
    (openSized path size device session).1 = .ok source
      ↔ size ≤ maxFileSize ∧ source = .ofDevice (device ()) := by
  unfold openSized
  by_cases hsize : maxFileSize < size
  · rw [if_pos hsize]
    constructor
    · intro h
      cases h
    · intro h
      obtain ⟨hroom, -⟩ := h
      exact absurd hroom (Nat.not_le.2 hsize)
  · rw [if_neg hsize, Except.ok.injEq]
    exact ⟨fun h => ⟨Nat.not_lt.1 hsize, h.symm⟩, fun h => h.2.symm⟩

theorem openSource_eq_ok_iff (path : String) (entry : Entry) (session : Log.Session)
    (source : CharSource) :
    (entry.openSource path session).1 = .ok source ↔ entry.Opens source := by
  cases entry with
  | file content =>
      refine openSized_eq_ok_iff.trans ⟨?_, ?_⟩
      · intro h
        obtain ⟨hroom, rfl⟩ := h
        exact .file content hroom
      · intro h
        cases h with
        | file content hroom => exact ⟨hroom, rfl⟩
  | directory size =>
      refine openSized_eq_ok_iff.trans ⟨?_, ?_⟩
      · intro h
        obtain ⟨hroom, rfl⟩ := h
        exact .directory hroom
      · intro h
        cases h with
        | directory hroom => exact ⟨hroom, rfl⟩
  | unreachable cause =>
      constructor
      · intro h
        unfold openSource at h
        dsimp only at h
        split at h <;> cases h
      · intro h
        cases h

end Entry

/-- The report of a scan does not depend on what was logged before. -/
theorem scan_report (name : String) (source : CharSource) (preferences : ScanPreferences)
    (session : Log.Session) :
    (scan name source preferences session).1 = (scan name source preferences {}).1 := by
  rw [Scan.report_eq, Scan.report_eq]

/-- A report tells whether errors were met, kept or not. -/
theorem Report.hasErrors_eq_false_iff {report : Report} :
    report.hasErrors = false ↔ report.errorCount = 0 := by
  unfold hasErrors errorCount
  simp

theorem scanFile_eq_ok_iff (path : String) (files : Files) (preferences : ScanPreferences)
    (session : Log.Session) (report : Report) :
    (scanFile path files preferences session).1 = .ok report
      ↔ ∃ source, (files path).Opens source
          ∧ report = (scan path source preferences {}).1 := by
  refine (step_eq_ok_iff ((files path).openSource path session)
    (fun source later => (scan path source preferences later).map .ok id) ?ok ?error report).trans
      (exists_congr fun source => ?_)
  case ok =>
    intro source later h
    rw [scanFile, h]
    rfl
  case error =>
    intro error later h report hreport
    rw [scanFile, h] at hreport
    cases hreport
  rw [Entry.openSource_eq_ok_iff, Prod.map_fst, scan_report, Except.ok.injEq, eq_comm]

-- ================================================================ looking up

namespace RuleStore

/-- A name has an answer in any store exactly if it is a name. -/
theorem exists_get_iff (store : RuleStore String) (name : String) :
    (∃ rule, store.get name = .ok rule) ↔ ∃ p, Pattern.name name = .ok p := by
  unfold get
  cases Pattern.name name <;> simp [Except.map]

theorem valid_of_parseTable {table : List (String × String)} {rules : List (Pattern × String)}
    (h : parseTable table = .ok rules) : ∀ row ∈ table, ∃ p, Pattern.parse row.1 = .ok p := by
  induction table generalizing rules with
  | nil => exact fun row hrow => absurd hrow List.not_mem_nil
  | cons row table ih =>
      obtain ⟨p, rest, hparse, hrest, rfl⟩ := parseTable_cons_eq_ok_iff.1 h
      exact List.forall_mem_cons.2 ⟨⟨p, hparse⟩, ih hrest⟩

/-- A table is loaded exactly if its patterns are all valid. -/
theorem exists_ofTable_iff {table : List (String × String)} :
    (∃ loaded, ofTable table = .ok loaded) ↔ ∀ row ∈ table, ∃ p, Pattern.parse row.1 = .ok p := by
  constructor
  · intro h
    obtain ⟨⟨store, logged⟩, h⟩ := h
    obtain ⟨rules, hrules, -⟩ := ofTable_eq_ok_iff.1 h
    exact valid_of_parseTable hrules
  · intro hvalid
    obtain ⟨rules, hrules⟩ := parseTable_of_valid hvalid
    exact ⟨_, ofTable_eq_ok_iff.2 ⟨rules, hrules, rfl, rfl⟩⟩

end RuleStore

theorem Config.loadRules_eq_ok_iff (config : Config) (session : Log.Session)
    (store : RuleStore String) :
    (config.loadRules session).1 = .ok store
      ↔ ∃ logged, RuleStore.ofTable config.rules = .ok (store, logged) := by
  unfold loadRules
  dsimp only
  cases RuleStore.ofTable config.rules with
  | error fault => simp
  | ok loaded => simp [Prod.ext_iff]

namespace CommandLine

section Lookups

variable {store : RuleStore String} {names : List String} {lookups : Lookups}

theorem lookupAll_append (store : RuleStore String) (names : List String) (name : String) :
    lookupAll store (names ++ [name])
      = (lookupAll store names).bind fun found =>
          (store.get name).map fun rule => found.insert name rule := by
  unfold lookupAll
  rw [List.foldlM_append]
  apply bind_congr
  intro found
  rw [List.foldlM_cons]
  exact bind_pure _

theorem lookupAll_append_eq_ok_iff {name : String} :
    lookupAll store (names ++ [name]) = .ok lookups
      ↔ ∃ found rule, lookupAll store names = .ok found ∧ store.get name = .ok rule
          ∧ lookups = found.insert name rule := by
  rw [lookupAll_append]
  cases lookupAll store names with
  | error fault => simp [Except.bind]
  | ok found => cases store.get name <;> simp [Except.bind, Except.map, eq_comm]

/-- Names are looked up if all of them are names, -/
theorem exists_lookupAll_iff :
    (∃ lookups, lookupAll store names = .ok lookups)
      ↔ ∀ name ∈ names, ∃ p, Pattern.name name = .ok p := by
  induction names using List.reverseRecOn with
  | nil => exact ⟨fun _ _ h => absurd h List.not_mem_nil, fun _ => ⟨[], rfl⟩⟩
  | append_singleton names name ih =>
      simp only [lookupAll_append_eq_ok_iff, List.forall_mem_append, List.forall_mem_singleton]
      rw [← ih, ← RuleStore.exists_get_iff store]
      constructor
      · intro h
        obtain ⟨-, found, rule, hfound, hrule, -⟩ := h
        exact ⟨⟨found, hfound⟩, rule, hrule⟩
      · intro h
        obtain ⟨⟨found, hfound⟩, rule, hrule⟩ := h
        exact ⟨_, found, rule, hfound, hrule, rfl⟩

/-- and what is found is each name with its rule. -/
theorem get?_of_lookupAll (h : lookupAll store names = .ok lookups) :
    lookups.Ascending
      ∧ ∀ name rule, lookups.get? name = some rule ↔ name ∈ names ∧ store.get name = .ok rule := by
  induction names using List.reverseRecOn generalizing lookups with
  | nil =>
      cases h
      refine ⟨Dictionary.ascending_nil, fun name rule => ⟨fun h => ?_, fun h => ?_⟩⟩
      · cases h
      · cases h.1
  | append_singleton names last ih =>
      obtain ⟨found, answer, hfound, hanswer, rfl⟩ := lookupAll_append_eq_ok_iff.1 h
      obtain ⟨hascending, hget⟩ := ih hfound
      refine ⟨hascending.alter last _, fun name rule => ?_⟩
      rw [List.mem_append, List.mem_singleton]
      by_cases hlast : last = name
      · subst hlast
        rw [Dictionary.get?_insert_self, hanswer]
        simp
      · rw [Dictionary.get?_insert_of_ne hlast, hget]
        simp [Ne.symm hlast]

end Lookups

-- ================================================================= the work

section Work

variable {setting : Setting} {options : Options} {config : Config} {session : Log.Session}

/-- The configuration that is loaded: that of a file, or the one of a
program that is given none. -/
inductive Loads (setting : Setting) : Option String → Config → Prop
  | file {path : String} {config : Config}
      (load : Config.load setting.environment path setting.files = .ok config) :
      Loads setting (some path) config
  | none : Loads setting none (.default setting.environment)

/-- The preferences of a scan, with what the flags among the options add. -/
def Options.added (options : Options) (preferences : ScanPreferences) : ScanPreferences :=
  { preferences with
    includeTrivia := preferences.includeTrivia || options.includeTrivia
    stopOnBalanceError := preferences.stopOnBalanceError || options.stopOnBalanceError }

theorem map_eq_ok_iff {ε α β : Type} {f : α → β} {result : Except ε α} {b : β} :
    result.map f = .ok b ↔ ∃ a, result = .ok a ∧ b = f a := by
  cases result with
  | error error => simp [Except.map]
  | ok a => simp [Except.map, eq_comm]

theorem mapError_eq_ok_iff {ε ε' α : Type} {f : ε → ε'} {result : Except ε α} {a : α} :
    result.mapError f = .ok a ↔ result = .ok a := by
  cases result <;> simp [Except.mapError]

theorem configure_eq_ok_iff :
    configure setting options = .ok config
      ↔ ∃ loaded, Loads setting options.configPath loaded
          ∧ config = { loaded with scan := options.added loaded.scan } := by
  refine map_eq_ok_iff.trans (exists_congr fun loaded => and_congr_left fun _ => ?_)
  cases options.configPath with
  | none =>
      constructor
      · intro h
        cases h
        exact .none
      · intro h
        cases h
        rfl
  | some path =>
      constructor
      · exact .file
      · intro h
        obtain ⟨hload⟩ := h
        exact hload

/-- The report about the input, if there is one. -/
inductive Reports (files : Files) (preferences : ScanPreferences) :
    Option String → Option Report → Prop
  | none : Reports files preferences none none
  | scan {path : String} {source : CharSource} (opens : (files path).Opens source) :
      Reports files preferences (some path) (some (LayeredLexer.scan path source preferences {}).1)

theorem scanInput_eq_ok_iff (setting : Setting) (config : Config) (input : Option String)
    (session : Log.Session) (report : Option Report) :
    (scanInput setting config input session).1 = .ok report
      ↔ Reports setting.files config.scan input report := by
  cases input with
  | none =>
      constructor
      · intro h
        cases h
        exact .none
      · intro h
        cases h
        rfl
  | some path =>
      refine (step_eq_ok_iff (scanFile path setting.files config.scan session)
        (fun report later => (.ok (some report), later)) ?ok ?error report).trans ?_
      case ok =>
        intro found later h
        rw [scanInput, h]
      case error =>
        intro error later h found hfound
        rw [scanInput, h] at hfound
        cases hfound
      simp only [scanFile_eq_ok_iff, Except.ok.injEq]
      constructor
      · intro h
        obtain ⟨_, ⟨source, hopens, rfl⟩, rfl⟩ := h
        exact .scan hopens
      · intro h
        cases h with
        | scan hopens => exact ⟨_, ⟨_, hopens, rfl⟩, rfl⟩

/-- What is found of the names, if there are any, in a table of rules. -/
inductive LooksUp (rules : Dictionary String) : List String → Lookups → Prop
  | none : LooksUp rules [] []
  | found {names : List String} {lookups : Lookups} {store : RuleStore String}
      {logged : Array Log.Event} (asked : names ≠ [])
      (load : RuleStore.ofTable rules = .ok (store, logged))
      (lookup : lookupAll store names = .ok lookups) : LooksUp rules names lookups

theorem lookupNames_eq_ok_iff (config : Config) (names : List String) (session : Log.Session)
    (lookups : Lookups) :
    (lookupNames config names session).1 = .ok lookups ↔ LooksUp config.rules names lookups := by
  unfold lookupNames
  by_cases hnames : names = []
  · subst hnames
    constructor
    · intro h
      cases h
      exact .none
    · intro h
      rcases h with - | ⟨hasked, -, -⟩
      · rfl
      · exact absurd rfl hasked
  · rw [if_neg (by simpa using hnames)]
    refine (step_eq_ok_iff (config.loadRules session)
      (fun store later => ((lookupAll store names).mapError .rules, later)) ?ok ?error
        lookups).trans ?_
    case ok =>
      intro store later h
      rw [h]
      dsimp only
      cases lookupAll store names <;> rfl
    case error =>
      intro error later h found hfound
      rw [h] at hfound
      cases hfound
    simp only [Config.loadRules_eq_ok_iff, mapError_eq_ok_iff]
    constructor
    · intro h
      obtain ⟨store, ⟨logged, hload⟩, hlookup⟩ := h
      exact .found hnames hload hlookup
    · intro h
      cases h with
      | none => exact absurd rfl hnames
      | found hasked hload hlookup => exact ⟨_, ⟨_, hload⟩, hlookup⟩

/-- The work has the findings that its two steps have. -/
theorem work_eq_ok_iff (setting : Setting) (options : Options) (config : Config)
    (session : Log.Session) (findings : Findings) :
    (work setting options config session).1 = .ok findings
      ↔ Reports setting.files config.scan options.input findings.report
          ∧ LooksUp config.rules options.lookups findings.lookups := by
  refine (step_eq_ok_iff (scanInput setting config options.input session)
    (fun report later => ((lookupNames config options.lookups later).map
      (·.map fun lookups => ⟨report, lookups⟩) id)) ?ok ?error findings).trans ?_
  case ok =>
    intro report later h
    rw [work, h]
    dsimp only
    obtain ⟨result, last⟩ := lookupNames config options.lookups later
    cases result <;> rfl
  case error =>
    intro failure later h found hfound
    rw [work, h] at hfound
    cases hfound
  simp only [Prod.map_fst, map_eq_ok_iff, scanInput_eq_ok_iff, lookupNames_eq_ok_iff]
  constructor
  · intro h
    obtain ⟨report, hreport, lookups, hlookups, rfl⟩ := h
    exact ⟨hreport, hlookups⟩
  · intro h
    exact ⟨_, h.1, _, h.2, rfl⟩

end Work

-- ================================================================ the exit

/-- The input, if there is one, can be opened, and its scan meets no error. -/
theorem exists_reports_iff {files : Files} {preferences : ScanPreferences}
    {input : Option String} :
    (∃ report, Reports files preferences input report ∧ report.any Report.hasErrors = false)
      ↔ ∀ path ∈ input, ∃ source, (files path).Opens source
          ∧ Scan.faults preferences (Scan.checker source) = [] := by
  cases input with
  | none => exact ⟨fun _ path hpath => absurd hpath (by simp), fun _ => ⟨_, .none, rfl⟩⟩
  | some path =>
      simp only [Option.mem_some_iff, forall_eq']
      have hclean (source : CharSource) :
          (scan path source preferences {}).1.hasErrors = false
            ↔ Scan.faults preferences (Scan.checker source) = [] := by
        rw [Report.hasErrors_eq_false_iff, Scan.errorCount_scan, List.length_eq_zero_iff]
      constructor
      · intro h
        obtain ⟨_, ⟨⟩, h⟩ := h
        next source hopens => exact ⟨source, hopens, (hclean source).1 h⟩
      · intro h
        obtain ⟨source, hopens, h⟩ := h
        exact ⟨_, .scan hopens, (hclean source).2 h⟩

theorem exists_looksUp_iff {rules : Dictionary String} {names : List String} :
    (∃ lookups, LooksUp rules names lookups)
      ↔ (names ≠ [] → ∀ row ∈ rules, ∃ pattern, Pattern.parse row.1 = .ok pattern)
          ∧ ∀ name ∈ names, ∃ pattern, Pattern.name name = .ok pattern := by
  by_cases hnames : names = []
  · subst hnames
    simp only [ne_eq, not_true_eq_false, false_implies, List.not_mem_nil, implies_true, and_self,
      iff_true]
    exact ⟨[], .none⟩
  · rw [← RuleStore.exists_ofTable_iff]
    constructor
    · intro h
      obtain ⟨lookups, (- | ⟨-, hload, hlookup⟩)⟩ := h
      · exact absurd rfl hnames
      · exact ⟨fun _ => ⟨_, hload⟩, exists_lookupAll_iff.1 ⟨lookups, hlookup⟩⟩
    · intro h
      obtain ⟨hload, hvalid⟩ := h
      obtain ⟨⟨store, logged⟩, hload⟩ := hload hnames
      obtain ⟨lookups, hlookup⟩ := exists_lookupAll_iff.2 hvalid
      exact ⟨lookups, .found hnames hload hlookup⟩

/-- All that the options ask for can be done with the configuration that
is loaded, and the scan, if there is one, meets no error at all. -/
structure Succeeds (setting : Setting) (options : Options) (config : Config) : Prop where
  loads : Loads setting options.configPath config
  scans : ∀ path ∈ options.input, ∃ source, (setting.files path).Opens source
    ∧ Scan.faults (options.added config.scan) (Scan.checker source) = []
  patterns : options.lookups ≠ [] →
    ∀ row ∈ config.rules, ∃ pattern, Pattern.parse row.1 = .ok pattern
  names : ∀ name ∈ options.lookups, ∃ pattern, Pattern.name name = .ok pattern

/-- That comes to findings without errors. -/
theorem exists_succeeds_iff {setting : Setting} {options : Options} :
    (∃ config, Succeeds setting options config)
      ↔ ∃ config, ∃ findings : Findings, configure setting options = .ok config
          ∧ Reports setting.files config.scan options.input findings.report
          ∧ LooksUp config.rules options.lookups findings.lookups
          ∧ findings.isClean = true := by
  constructor
  · intro h
    obtain ⟨loaded, h⟩ := h
    obtain ⟨report, hreport, hclean⟩ := exists_reports_iff.2 h.scans
    obtain ⟨lookups, hlookups⟩ := exists_looksUp_iff.2 ⟨h.patterns, h.names⟩
    refine ⟨_, ⟨report, lookups⟩, configure_eq_ok_iff.2 ⟨loaded, h.loads, rfl⟩, hreport,
      hlookups, ?_⟩
    rw [Findings.isClean, hclean]
    rfl
  · intro h
    obtain ⟨config, findings, hconfig, hreport, hlookups, hclean⟩ := h
    obtain ⟨loaded, hloads, rfl⟩ := configure_eq_ok_iff.1 hconfig
    obtain ⟨hpatterns, hnames⟩ := exists_looksUp_iff.1 ⟨_, hlookups⟩
    have hclean : findings.report.any Report.hasErrors = false := by
      simpa [Findings.isClean] using hclean
    exact ⟨loaded, hloads, exists_reports_iff.1 ⟨_, hreport, hclean⟩, hpatterns, hnames⟩

section Perform

variable {setting : Setting} {options : Options} {config : Config} {later : Log.Session}

/-- What was found is written behind the lines of what was logged. -/
theorem perform_of_findings {findings : Findings} (hconfig : configure setting options = .ok config)
    (hwork : work setting options config (Log.System.openingSession config.logging)
      = (.ok findings, later)) :
    perform setting options
      = (findings.outcome options.json).after
          (config.logging.lines setting.timestamp later.events) := by
  rw [perform, hconfig]
  dsimp only
  rw [hwork]

theorem perform_of_failure {failure : Failure} (hconfig : configure setting options = .ok config)
    (hwork : work setting options config (Log.System.openingSession config.logging)
      = (.error failure, later)) :
    (perform setting options).exitCode = 1 := by
  rw [perform, hconfig]
  dsimp only
  rw [hwork]
  rfl

/-- What is performed exits with zero if it succeeds, and else with one. -/
theorem exitCode_perform (setting : Setting) (options : Options) :
    ((∃ config, Succeeds setting options config) → (perform setting options).exitCode = 0)
      ∧ ((¬ ∃ config, Succeeds setting options config) →
        (perform setting options).exitCode = 1) := by
  rw [exists_succeeds_iff]
  cases hconfig : configure setting options with
  | error error =>
      constructor
      · intro h
        obtain ⟨_, findings, ⟨⟩, -⟩ := h
      · intro _
        rw [perform, hconfig]
        rfl
  | ok config =>
      -- If the work has failed, there are no findings at all.
      have hdone := work_eq_ok_iff setting options config
        (Log.System.openingSession config.logging)
      cases hwork : work setting options config (Log.System.openingSession config.logging) with
      | mk result session =>
          rw [hwork] at hdone
          cases result with
          | error failure =>
              refine ⟨?_, fun _ => perform_of_failure hconfig hwork⟩
              intro h
              obtain ⟨_, findings, ⟨⟩, hreport, hlookups, -⟩ := h
              cases (hdone findings).2 ⟨hreport, hlookups⟩
          | ok findings =>
              obtain ⟨hreport, hlookups⟩ := (hdone findings).1 rfl
              rw [perform_of_findings hconfig hwork]
              constructor
              · intro h
                obtain ⟨_, other, ⟨⟩, hreport, hlookups, hclean⟩ := h
                cases (hdone other).2 ⟨hreport, hlookups⟩
                exact if_pos hclean
              · intro hnot
                exact if_neg fun hclean => hnot ⟨config, findings, rfl, hreport, hlookups, hclean⟩

end Perform

/-- The exit code tells success. It is zero if help was asked for, or if
the configuration was loaded, the input could be opened and its scan met
no error, and all configured patterns and all names that were asked for
are valid; and it is one in all other cases. -/
theorem exitCode_run (setting : Setting) (arguments : List String) :
    let success := parseOptions arguments = .ok .help
      ∨ ∃ options config, parseOptions arguments = .ok (.perform options)
          ∧ Succeeds setting options config
    ((run setting arguments).exitCode = 0 ↔ success)
      ∧ ((run setting arguments).exitCode = 1 ↔ ¬ success) := by
  intro success
  have hrun : (success → (run setting arguments).exitCode = 0)
      ∧ (¬ success → (run setting arguments).exitCode = 1) := by
    unfold run
    by_cases hnone : arguments = []
    · subst hnone
      refine ⟨?_, fun _ => rfl⟩
      intro h
      rcases h with h | ⟨options, config, h, -⟩ <;> cases h
    · rw [if_neg (by simpa using hnone)]
      cases hparse : parseOptions arguments with
      | error error =>
          refine ⟨?_, fun _ => rfl⟩
          intro h
          rcases h with h | ⟨options, config, h, -⟩ <;> cases hparse.symm.trans h
      | ok request =>
          cases request with
          | help => exact ⟨fun _ => rfl, fun hnot => absurd (.inl hparse) hnot⟩
          | perform options =>
              obtain ⟨hzero, hone⟩ := exitCode_perform setting options
              constructor
              · intro h
                rcases h with h | ⟨other, config, h, hsucceeds⟩
                · cases hparse.symm.trans h
                · cases hparse.symm.trans h
                  exact hzero ⟨config, hsucceeds⟩
              · intro hnot
                apply hone
                intro h
                obtain ⟨config, hsucceeds⟩ := h
                exact hnot (.inr ⟨options, config, hparse, hsucceeds⟩)
  obtain ⟨hzero, hone⟩ := hrun
  by_cases hsuccess : success
  · simp [hsuccess, hzero hsuccess]
  · simp [hsuccess, hone hsuccess]

end CommandLine

end LayeredLexer
