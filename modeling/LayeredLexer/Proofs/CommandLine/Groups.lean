/-
The grammar of arguments. From left to right the arguments fall into
groups: a flag, an option with the argument behind it, whatever that looks
like, or an input, which is an argument that stands for itself. What a
list of arguments asks for is read off its groups (`Options.ofGroups`), and
of their order only that among the paths of configurations and that among
the names matter.

# Why the reader keeps to the groups

Its first argument decides what kind of group a list begins with, so the
reader takes one group at a time (`read_words`), and what it has taken
together is what the groups say (`foldl_add`). It ends where no further
group is taken, which is at the end, where help is asked for, or at a
fault (`Halts`). One induction on the arguments finds that place
(`endsWith_read`). The other direction needs none of its own: whichever
groups a list is split into, the reader takes these.
-/
import LayeredLexer.CommandLine.Options
import Mathlib.Data.List.Induction
import Mathlib.Data.List.Perm.Basic

namespace LayeredLexer.CommandLine

-- ================================================================ groups

/-- What is asked for by an argument alone. -/
inductive Flag where
  | json
  | trivia
  | stopOnBalanceError
deriving DecidableEq, Repr

def Flag.word : Flag → String
  | json => "--json"
  | trivia => "--trivia"
  | stopOnBalanceError => "--stop-on-balance-error"

/-- The two options with the path of a configuration behind them. -/
inductive ConfigOption where
  | config
  | rules
deriving DecidableEq, Repr

def ConfigOption.word : ConfigOption → String
  | config => "--config"
  | rules => "--rules"

/-- An argument that stands for itself: it neither asks for help nor looks
like an option. -/
structure Plain where
  text : String
  noHelp : text ≠ "-h"
  noOption : ¬ ['-', '-'] <+: text.toList
deriving DecidableEq, Repr

/-- Arguments that belong together. -/
inductive Group where
  | flag (which : Flag)
  | config (option : ConfigOption) (path : String)
  | lookup (name : String)
  | input (argument : Plain)
deriving DecidableEq, Repr

namespace Group

/-- The arguments of a group. -/
def words : Group → List String
  | .flag which => [which.word]
  | .config option path => [option.word, path]
  | .lookup name => ["--lookup", name]
  | .input argument => [argument.text]

def input? : Group → Option String
  | input argument => some argument.text
  | _ => none

def path? : Group → Option String
  | config _ path => some path
  | _ => none

def name? : Group → Option String
  | lookup name => some name
  | _ => none

end Group

/-- The arguments that groups are written as. -/
def spelled (groups : List Group) : List String := groups.flatMap Group.words

/-- The inputs among groups. -/
def inputs (groups : List Group) : List String := groups.filterMap Group.input?

/-- The paths of configurations among groups, in their order. -/
def configPaths (groups : List Group) : List String := groups.filterMap Group.path?

/-- The names to look up among groups, in their order. -/
def names (groups : List Group) : List String := groups.filterMap Group.name?

/-- What groups ask for. -/
def Options.ofGroups (groups : List Group) : Options where
  input := (inputs groups).getLast?
  json := decide (.flag .json ∈ groups)
  includeTrivia := decide (.flag .trivia ∈ groups)
  stopOnBalanceError := decide (.flag .stopOnBalanceError ∈ groups)
  configPath := (configPaths groups).getLast?
  lookups := names groups

/-- Groups with at most one input, and with something to do. -/
structure Complete (groups : List Group) : Prop where
  input : (inputs groups).length ≤ 1
  something : inputs groups ≠ [] ∨ names groups ≠ []

/-- Help is asked for, behind groups with at most one input. -/
def AsksHelp (arguments : List String) : Prop :=
  ∃ groups word rest, arguments = spelled groups ++ word :: rest
    ∧ (inputs groups).length ≤ 1 ∧ (word = "--help" ∨ word = "-h")

@[simp] theorem inputs_cons (group : Group) (groups : List Group) :
    inputs (group :: groups) = group.input?.toList ++ inputs groups := by
  cases group <;> rfl

theorem spelled_cons (group : Group) (groups : List Group) :
    spelled (group :: groups) = group.words ++ spelled groups := List.flatMap_cons

-- ============================================================ one group

namespace Options

/-- The options with what a flag asks for. -/
def set (options : Options) : Flag → Options
  | .json => { options with json := true }
  | .trivia => { options with includeTrivia := true }
  | .stopOnBalanceError => { options with stopOnBalanceError := true }

/-- The options with what a group asks for. -/
def add (options : Options) : Group → Options
  | .flag flag => options.set flag
  | .config _ path => { options with configPath := some path }
  | .lookup name => { options with lookups := options.lookups ++ [name] }
  | .input argument => { options with input := some argument.text }

/-- The flags are the arguments that set something. -/
theorem flag?_eq_some_iff {options next : Options} {argument : String} :
    options.flag? argument = some next
      ↔ ∃ flag : Flag, argument = flag.word ∧ next = options.set flag := by
  constructor
  · intro h
    unfold flag? at h
    split at h
    · exact ⟨.json, rfl, (Option.some.inj h).symm⟩
    · exact ⟨.trivia, rfl, (Option.some.inj h).symm⟩
    · exact ⟨.stopOnBalanceError, rfl, (Option.some.inj h).symm⟩
    · cases h
  · intro h
    obtain ⟨flag, rfl, rfl⟩ := h
    cases flag <;> rfl

end Options

theorem isOption_iff {argument : String} :
    isOption argument = true ↔ ['-', '-'] <+: argument.toList := by
  rw [isOption, beq_iff_eq, List.prefix_iff_eq_take]
  exact eq_comm

theorem isHelp_iff {argument : String} :
    isHelp argument = true ↔ argument = "--help" ∨ argument = "-h" := by
  simp [isHelp]

theorem isConfig_iff {argument : String} :
    isConfig argument = true ↔ ∃ option : ConfigOption, argument = option.word := by
  rw [isConfig, Bool.or_eq_true, beq_iff_eq, beq_iff_eq]
  constructor
  · intro h
    rcases h with rfl | rfl
    · exact ⟨.config, rfl⟩
    · exact ⟨.rules, rfl⟩
  · intro h
    obtain ⟨_ | _, rfl⟩ := h
    · exact .inl rfl
    · exact .inr rfl

section Words

variable {options : Options} {rest : List String}

theorem read_flag (flag : Flag) :
    options.read (flag.word :: rest) = (options.set flag).read rest := by
  rw [Options.read.eq_def]
  cases flag <;> rfl

theorem read_config (option : ConfigOption) (path : String) :
    options.read (option.word :: path :: rest)
      = { options with configPath := some path }.read rest := by
  rw [Options.read.eq_def]
  cases option <;> rfl

theorem read_lookup (name : String) :
    options.read ("--lookup" :: name :: rest)
      = { options with lookups := options.lookups ++ [name] }.read rest := by
  rw [Options.read.eq_def]
  rfl

/-- Whatever looks like an option is no plain argument. -/
theorem Plain.ne {argument : Plain} {word : String} (h : ['-', '-'] <+: word.toList) :
    argument.text ≠ word :=
  fun hsame => argument.noOption (hsame ▸ h)

theorem read_plain (argument : Plain) (hroom : options.input = none) :
    options.read (argument.text :: rest)
      = { options with input := some argument.text }.read rest := by
  have hhelp : isHelp argument.text = false := by
    rw [Bool.eq_false_iff, ne_eq, isHelp_iff, not_or]
    exact ⟨argument.ne (by decide), argument.noHelp⟩
  have hconfig : isConfig argument.text = false := by
    rw [Bool.eq_false_iff, ne_eq, isConfig_iff]
    intro h
    obtain ⟨option, hoption⟩ := h
    refine argument.ne ?_ hoption
    cases option <;> decide
  have hlookup : argument.text ≠ "--lookup" := argument.ne (by decide)
  have hflag : options.flag? argument.text = none := by
    rw [Option.eq_none_iff_forall_ne_some]
    intro next hnext
    obtain ⟨flag, hword, -⟩ := Options.flag?_eq_some_iff.1 hnext
    refine argument.ne ?_ hword
    cases flag <;> decide
  have hplain : isOption argument.text = false := by
    rw [Bool.eq_false_iff, ne_eq, isOption_iff]
    exact argument.noOption
  rw [Options.read.eq_def]
  simp [hhelp, hconfig, hlookup, hflag, Options.positional, hplain, hroom]

end Words

/-- There is room for at most one input. -/
def Options.HasRoom (options : Options) (groups : List Group) : Prop :=
  (options.input.toList ++ inputs groups).length ≤ 1

theorem hasRoom_nil (options : Options) : options.HasRoom [] := by
  cases hinput : options.input <;> simp [Options.HasRoom, inputs, hinput]

/-- A group in front is taken, if there is room for it. -/
theorem read_words {options : Options} {group : Group} (hroom : options.HasRoom [group])
    (rest : List String) :
    options.read (group.words ++ rest) = (options.add group).read rest := by
  cases group with
  | flag which => exact read_flag which
  | config option path => exact read_config option path
  | lookup name => exact read_lookup name
  | input argument =>
      refine read_plain argument ?_
      cases hinput : options.input with
      | none => rfl
      | some taken => simp [Options.HasRoom, inputs, Group.input?, hinput] at hroom

-- ============================================================ all groups

/-- The room that is left behind a group. -/
theorem Options.HasRoom.add {options : Options} {group : Group} {groups : List Group}
    (h : options.HasRoom (group :: groups)) :
    options.HasRoom [group] ∧ (options.add group).HasRoom groups := by
  unfold HasRoom at h ⊢
  rw [inputs_cons] at h ⊢
  cases group with
  | flag which => cases which <;> simp_all [Group.input?, Options.add, set, inputs]
  | config | lookup => simp_all [Group.input?, Options.add, inputs]
  | input argument =>
      cases hinput : options.input with
      | none => simpa [Group.input?, Options.add, inputs, hinput] using h
      | some taken => simp [Group.input?, hinput] at h

/-- Groups in front are taken one after the other. -/
theorem read_spelled {options : Options} {groups : List Group} (hroom : options.HasRoom groups)
    (rest : List String) :
    options.read (spelled groups ++ rest) = (groups.foldl Options.add options).read rest := by
  induction groups generalizing options with
  | nil => rfl
  | cons group groups ih =>
      obtain ⟨hfirst, hlater⟩ := hroom.add
      rw [spelled_cons, List.append_assoc, read_words hfirst, ih hlater]
      rfl

/-- Groups that are taken one after the other ask for what they say. -/
theorem foldl_add (groups : List Group) : groups.foldl Options.add {} = .ofGroups groups := by
  induction groups using List.reverseRecOn with
  | nil => rfl
  | append_singleton groups group ih =>
      rw [List.foldl_append, List.foldl_cons, List.foldl_nil, ih]
      cases group with
      | flag flag =>
          cases flag <;> simp [Options.add, Options.set, Options.ofGroups, inputs, configPaths,
            names, Group.input?, Group.path?, Group.name?, List.filterMap_append]
      | config | lookup | input =>
          simp [Options.add, Options.ofGroups, inputs, configPaths, names, Group.input?,
            Group.path?, Group.name?, List.filterMap_append]

-- ======================================================= where reading ends

/-- Where the reading ends, and with what: behind the last argument, where
help is asked for, or at a fault. -/
inductive Halts (options : Options) : List String → Except OptionError Request → Prop
  | finished : Halts options [] options.finish
  | help {word : String} (rest : List String) (ask : word = "--help" ∨ word = "-h") :
      Halts options (word :: rest) (.ok .help)
  | fault (rest : List String) (error : OptionError) : Halts options rest (.error error)

/-- The arguments are groups that are taken, and behind them the reading
ends with this result. -/
def EndsWith (options : Options) (arguments : List String) (result : Except OptionError Request) :
    Prop :=
  ∃ groups rest, arguments = spelled groups ++ rest ∧ options.HasRoom groups
    ∧ Halts (groups.foldl Options.add options) rest result

section Reading

variable {options : Options} {rest : List String} {result : Except OptionError Request}

theorem Halts.endsWith (h : Halts options rest result) : EndsWith options rest result :=
  ⟨[], rest, rfl, hasRoom_nil options, h⟩

/-- A group may stand in front, if there is room for it. -/
theorem EndsWith.words (group : Group) (h : EndsWith (options.add group) rest result)
    (hroom : group.input? = none ∨ options.input = none) :
    EndsWith options (group.words ++ rest) result := by
  obtain ⟨groups, rest, rfl, hlater, hhalts⟩ := h
  refine ⟨group :: groups, rest, ?_, ?_, hhalts⟩
  · rw [spelled_cons, List.append_assoc]
  · unfold Options.HasRoom at hlater ⊢
    rw [inputs_cons]
    cases group with
    | flag which => cases which <;> exact hlater
    | config option path => exact hlater
    | lookup name => exact hlater
    | input argument =>
        obtain hnone | hinput := hroom
        · cases hnone
        · rw [hinput]
          exact hlater

/-- An argument that is taken as an input stands for itself. -/
theorem positional_eq_ok {word : String} {next : Options} (hhelp : ¬ isHelp word = true)
    (h : options.positional word = .ok next) :
    options.input = none
      ∧ ∃ argument : Plain, word = argument.text ∧ next = options.add (.input argument) := by
  unfold Options.positional at h
  split at h
  · cases h
  next hplain =>
    split at h
    next hinput =>
      cases h
      refine ⟨hinput, ⟨word, ?_, fun hoption => hplain (isOption_iff.2 hoption)⟩, rfl, rfl⟩
      exact fun hword => hhelp (isHelp_iff.2 (.inr hword))
    · cases h

/-- The reading of any arguments ends behind groups. -/
theorem endsWith_read (options : Options) (arguments : List String) :
    EndsWith options arguments (options.read arguments) := by
  fun_induction Options.read options arguments with
  | case1 options => exact Halts.finished.endsWith
  | case2 options word rest hhelp => exact (Halts.help rest (isHelp_iff.1 hhelp)).endsWith
  | case3 options word hhelp hconfig path rest ih =>
      obtain ⟨option, rfl⟩ := isConfig_iff.1 hconfig
      exact EndsWith.words (.config option path) ih (.inl rfl)
  | case4 options word hhelp hconfig => exact (Halts.fault _ _).endsWith
  | case5 options name rest hhelp hconfig ih =>
      exact EndsWith.words (.lookup name) ih (.inl rfl)
  | case6 options hhelp hconfig => exact (Halts.fault _ _).endsWith
  | case7 options word rest hhelp hconfig hlookup next hflag ih =>
      obtain ⟨flag, rfl, rfl⟩ := Options.flag?_eq_some_iff.1 hflag
      exact EndsWith.words (.flag flag) ih (.inl rfl)
  | case8 options word rest hhelp hconfig hlookup hflag next hplain ih =>
      obtain ⟨hinput, argument, rfl, rfl⟩ := positional_eq_ok hhelp hplain
      exact EndsWith.words (.input argument) ih (.inr hinput)
  | case9 options word rest hhelp hconfig hlookup hflag error hplain =>
      exact (Halts.fault _ _).endsWith

end Reading

-- ======================================================= what is asked for

section Requests

variable {groups other : List Group}

theorem hasRoom_iff : ({} : Options).HasRoom groups ↔ (inputs groups).length ≤ 1 := Iff.rfl

/-- Groups behind which nothing stands are performed if there is something
to do. -/
theorem finish_ofGroups {request : Request} :
    (Options.ofGroups groups).finish = .ok request
      ↔ (inputs groups ≠ [] ∨ names groups ≠ []) ∧ request = .perform (.ofGroups groups) := by
  unfold Options.finish
  by_cases hnothing : inputs groups = [] ∧ names groups = []
  · simp [Options.ofGroups, hnothing]
  · have hsomething : ((Options.ofGroups groups).input.isNone
        && (Options.ofGroups groups).lookups.isEmpty) = false := by
      simp [Options.ofGroups]
      tauto
    rw [hsomething]
    constructor
    · intro h
      cases h
      exact ⟨by tauto, rfl⟩
    · intro h
      obtain ⟨-, rfl⟩ := h
      rfl

/-- What is read of groups that have room. -/
theorem parseOptions_spelled (hroom : (inputs groups).length ≤ 1) (rest : List String) :
    parseOptions (spelled groups ++ rest) = (Options.ofGroups groups).read rest := by
  rw [parseOptions, read_spelled (hasRoom_iff.2 hroom), foldl_add]

theorem parseOptions_eq_perform_iff {arguments : List String} {options : Options} :
    parseOptions arguments = .ok (.perform options)
      ↔ ∃ groups, spelled groups = arguments ∧ Complete groups ∧ options = .ofGroups groups := by
  constructor
  · intro h
    have hends : EndsWith {} arguments (parseOptions arguments) := endsWith_read {} arguments
    rw [h] at hends
    obtain ⟨groups, rest, rfl, hroom, hhalts⟩ := hends
    rw [foldl_add] at hhalts
    generalize hresult : Except.ok (Request.perform options) = result at hhalts
    cases hhalts with
    | finished =>
        obtain ⟨hsomething, hrequest⟩ := finish_ofGroups.1 hresult.symm
        cases hrequest
        exact ⟨groups, (List.append_nil _).symm, ⟨hasRoom_iff.1 hroom, hsomething⟩, rfl⟩
    | help rest ask => cases hresult
    | fault rest error => cases hresult
  · intro h
    obtain ⟨groups, rfl, hcomplete, rfl⟩ := h
    have hread := parseOptions_spelled hcomplete.input []
    rw [List.append_nil] at hread
    rw [hread, Options.read.eq_def]
    exact finish_ofGroups.2 ⟨hcomplete.something, rfl⟩

theorem parseOptions_eq_help_iff {arguments : List String} :
    parseOptions arguments = .ok .help ↔ AsksHelp arguments := by
  constructor
  · intro h
    have hends : EndsWith {} arguments (parseOptions arguments) := endsWith_read {} arguments
    rw [h] at hends
    obtain ⟨groups, rest, rfl, hroom, hhalts⟩ := hends
    rw [foldl_add] at hhalts
    generalize hresult : Except.ok Request.help = result at hhalts
    cases hhalts with
    | finished => cases (finish_ofGroups.1 hresult.symm).2
    | help rest ask => exact ⟨groups, _, rest, rfl, hasRoom_iff.1 hroom, ask⟩
    | fault rest error => cases hresult
  · intro h
    obtain ⟨groups, word, rest, rfl, hroom, hask⟩ := h
    rw [parseOptions_spelled hroom, Options.read.eq_def]
    exact if_pos (isHelp_iff.2 hask)

-- ================================================================== order

/-- The same inputs in another order are the same, if there is only one. -/
theorem inputs_perm (h : groups.Perm other) (hroom : (inputs groups).length ≤ 1) :
    inputs groups = inputs other := by
  have hinputs : (inputs groups).Perm (inputs other) := h.filterMap _
  match hgroups : inputs groups with
  | [] =>
      rw [hgroups] at hinputs
      exact hinputs.nil_eq
  | [text] =>
      rw [hgroups] at hinputs
      exact (List.singleton_perm.1 hinputs)
  | _ :: _ :: _ => simp [hgroups] at hroom

/-- Groups in another order are complete as well, and ask for the same. -/
theorem Complete.perm (h : groups.Perm other) (hcomplete : Complete groups)
    (hpaths : configPaths groups = configPaths other) (hnames : names groups = names other) :
    Complete other ∧ Options.ofGroups groups = .ofGroups other := by
  have hinputs := inputs_perm h hcomplete.input
  obtain ⟨hroom, hsomething⟩ := hcomplete
  rw [hinputs] at hroom hsomething
  rw [hnames] at hsomething
  refine ⟨⟨hroom, hsomething⟩, ?_⟩
  unfold Options.ofGroups
  simp only [hinputs, hpaths, hnames, h.mem_iff]

/-- Complete groups are performed, in whatever order they are written. -/
theorem parseOptions_perm (hcomplete : Complete groups) (h : groups.Perm other)
    (hpaths : configPaths groups = configPaths other) (hnames : names groups = names other) :
    parseOptions (spelled other) = parseOptions (spelled groups) := by
  obtain ⟨hother, hsame⟩ := hcomplete.perm h hpaths hnames
  rw [parseOptions_eq_perform_iff.2 ⟨other, rfl, hother, rfl⟩,
    parseOptions_eq_perform_iff.2 ⟨groups, rfl, hcomplete, rfl⟩, hsame]

end Requests

-- ============================================================== main result

/-- The arguments are read by their grammar. They are performed if they are
groups with at most one input and something to do, and the options are
what the groups say; help is asked for behind such groups, finished or
not; all else is refused. In what order the groups stand is the same, as
long as the paths of configurations keep theirs and the names theirs. -/
theorem parseOptions_grammar (arguments : List String) :
    (∀ options, parseOptions arguments = .ok (.perform options)
        ↔ ∃ groups, spelled groups = arguments ∧ Complete groups ∧ options = .ofGroups groups)
      ∧ (parseOptions arguments = .ok .help ↔ AsksHelp arguments)
      ∧ ((∃ error, parseOptions arguments = .error error)
        ↔ (¬ ∃ groups, spelled groups = arguments ∧ Complete groups) ∧ ¬ AsksHelp arguments)
      ∧ ∀ groups other, spelled groups = arguments → Complete groups → groups.Perm other →
          configPaths groups = configPaths other → names groups = names other →
          parseOptions (spelled other) = parseOptions arguments := by
  refine ⟨fun options => parseOptions_eq_perform_iff, parseOptions_eq_help_iff, ?_, ?_⟩
  · rw [← parseOptions_eq_help_iff]
    constructor
    · intro h
      obtain ⟨error, herror⟩ := h
      refine ⟨?_, fun hhelp => ?_⟩
      · intro h
        obtain ⟨groups, hspelled, hcomplete⟩ := h
        have hperform := parseOptions_eq_perform_iff.2 ⟨groups, hspelled, hcomplete, rfl⟩
        cases herror.symm.trans hperform
      · cases herror.symm.trans hhelp
    · intro h
      obtain ⟨hgroups, hhelp⟩ := h
      match hread : parseOptions arguments with
      | .error error => exact ⟨error, rfl⟩
      | .ok .help => exact absurd hread hhelp
      | .ok (.perform options) =>
          obtain ⟨groups, hspelled, hcomplete, -⟩ := parseOptions_eq_perform_iff.1 hread
          exact absurd ⟨groups, hspelled, hcomplete⟩ hgroups
  · rintro groups other rfl hcomplete hperm hpaths hnames
    exact parseOptions_perm hcomplete hperm hpaths hnames

/-- Groups with two configurations and two names, some of which look like
options. -/
def crowded : List Group :=
  [.config .rules "r.toml", .lookup "--help", .input ⟨"-x", by decide, by decide⟩,
    .config .config "--json", .flag .trivia, .lookup "a.b"]

/-- The same groups in another order, with the paths and the names in theirs. -/
def crowdedAgain : List Group :=
  [.lookup "--help", .flag .trivia, .lookup "a.b", .config .rules "r.toml",
    .config .config "--json", .input ⟨"-x", by decide, by decide⟩]

theorem parseOptions_grammar_crowded :
    spelled crowded
        = ["--rules", "r.toml", "--lookup", "--help", "-x", "--config", "--json", "--trivia",
          "--lookup", "a.b"]
      ∧ Complete crowded ∧ crowded.Perm crowdedAgain
      ∧ configPaths crowded = configPaths crowdedAgain ∧ names crowded = names crowdedAgain
      ∧ parseOptions (spelled crowdedAgain) = parseOptions (spelled crowded)
      ∧ parseOptions (spelled crowded) = .ok (.perform {
          input := some "-x", includeTrivia := true, configPath := some "--json",
          lookups := ["--help", "a.b"] }) := by
  have hcomplete : Complete crowded := ⟨by decide, by decide⟩
  have hperm : crowded.Perm crowdedAgain := by decide
  obtain ⟨hperform, -, -, horder⟩ := parseOptions_grammar (spelled crowded)
  have hagain := horder crowded crowdedAgain rfl hcomplete hperm rfl rfl
  exact ⟨rfl, hcomplete, hperm, rfl, rfl, hagain, (hperform _).2 ⟨crowded, rfl, hcomplete, rfl⟩⟩

end LayeredLexer.CommandLine
