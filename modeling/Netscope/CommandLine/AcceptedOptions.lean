import Netscope.CommandLine.StoredArguments
import Netscope.Library.OptionLoop

/-! # The accepted command lines

Which sequences of options are accepted depends on which options were given and on
the last arguments of some of them, and on nothing else: not on the order of the
options and not on how often they are repeated.
-/
namespace Netscope.AcceptedOptions
open ByteString Numerals PartialMemory OptionLoop StoredArguments

/-! ## The documented combinations -/

def isError : Token → Bool
  | .unrecognized .. => true
  | _ => false

/-- The options that `--filter` excludes. -/
def isSimpleFilter : Token → Bool
  | .tcp | .udp | .icmp | .port _ | .host _ | .src _ | .dst _ => true
  | _ => false

def portArgument : Token → Option CString
  | .port arg => some arg
  | _ => none

def formatArgument : Token → Option CString
  | .format arg => some arg
  | _ => none

/-- `strtol` takes the whole text for a number, without a range error, and the number is
that of a port. -/
structure IsPort (arg : CString) : Prop where
  converted : (strtol arg.bytes).consumed ≠ 0
  full : (strtol arg.bytes).consumed = arg.bytes.length
  range : (strtol arg.bytes).range = false
  bounds : 0 ≤ (strtol arg.bytes).value ∧ (strtol arg.bytes).value ≤ 65535

def IsFormat (arg : CString) : Prop := arg.bytes = ascii "json" ∨ arg.bytes = ascii "text"

/-- A string option was given at least once. -/
def Given (o : StringOption) (tokens : List Token) : Prop := arguments o tokens ≠ []

/-- The options of a run that is to capture packets or to list interfaces. -/
structure Compatible (tokens : List Token) : Prop where
  oneInput : ¬(Given .interface tokens ∧ Given .read tokens)
  oneFilter : ¬(Given .filter tokens ∧ ∃ t ∈ tokens, isSimpleFilter t = true)
  output : (lastArgument .output tokens).bytes = [] ∨
    ∃ arg, (tokens.filterMap formatArgument).getLast? = some arg ∧ arg.bytes = ascii "json"
  input : .listInterfaces ∈ tokens ∨ Given .interface tokens ∨ Given .read tokens

/-- The documented command lines. -/
structure Documented (args : CommandLine) : Prop where
  recognized : ∀ t ∈ args.tokens, isError t = false
  noPositional : args.leftover = none
  ports : ∀ arg ∈ args.tokens.filterMap portArgument, IsPort arg
  formats : ∀ arg ∈ args.tokens.filterMap formatArgument, IsFormat arg
  combination : .help ∈ args.tokens ∨ .version ∈ args.tokens ∨ Compatible args.tokens

/-- The run captures packets. -/
def Captures (tokens : List Token) : Prop := .help ∉ tokens ∧ .version ∉ tokens ∧ .listInterfaces ∉ tokens

/-- The value of the enumerator. -/
def logNumber : LogLevel → ℕ
  | .error => 0
  | .warn => 1
  | .info => 2
  | .debug => 3

/-- What the options say of the input, of the port and of the log level. -/
structure Reads (tokens : List Token) (config : Config) : Prop where
  live : config.inputMode = .live ↔ Given .interface tokens ∧ Captures tokens
  file : config.inputMode = .file ↔ Given .read tokens ∧ Captures tokens
  port : config.filterPort.toInt =
    ((tokens.filterMap portArgument).getLast?.map fun arg => (strtol arg.bytes).value).getD (-1)
  debug : .debug ∈ tokens → config.logLevel = .debug
  level : .debug ∉ tokens →
    logNumber config.logLevel = min (logNumber .debug) (logNumber .warn + tokens.count .verbosity)

/-! ## One option -/

section Step
variable {n : ℕ}

theorem parsePort_ok_iff {arg : CString} {port : Int32} :
    parsePort arg n = .ok port ↔ IsPort arg ∧ port = Int32.ofInt (strtol arg.bytes).value := by
  unfold parsePort
  dsimp only
  split
  · rename_i h
    constructor
    · intro herr
      cases herr
    · rintro ⟨⟨hconverted,hfull,hrange,hbounds⟩,-⟩
      rcases h with h | h | h | h | h
      · exact absurd h hconverted
      · exact absurd hfull h
      · exact absurd h (Bool.eq_false_iff.mp hrange)
      · omega
      · omega
  · rename_i h
    simp only [not_or, Decidable.not_not, not_lt, Bool.not_eq_true] at h
    obtain ⟨hconverted,hfull,hrange,hlow,hhigh⟩ := h
    constructor
    · intro hok
      exact ⟨⟨hconverted,hfull,hrange,hlow,hhigh⟩,(Except.ok.inj hok).symm⟩
    · rintro ⟨-,rfl⟩
      rfl

/-- The format that an argument names. -/
def formatOf (arg : CString) : OutputFormat := if arg.bytes = ascii "json" then .json else .text

theorem parseToken_format_iff {s s' : ParseState} {arg : CString} :
    parseToken n s (.format arg) = .ok s' ↔
      IsFormat arg ∧ s' = { s with out := { s.out with format := formatOf arg } } := by
  rw [parseToken, formatOf, IsFormat]
  by_cases hjson : arg.bytes = ascii "json"
  · rw [if_pos hjson, if_pos hjson, Except.ok.injEq, eq_comm, and_iff_right (.inl hjson)]
  · rw [if_neg hjson, if_neg hjson]
    by_cases htext : arg.bytes = ascii "text"
    · rw [if_pos htext, Except.ok.injEq, eq_comm, and_iff_right (.inr htext)]
    · rw [if_neg htext]
      exact iff_of_false (by simp) (fun h => h.1.elim hjson htext)

theorem parseToken_port_iff {s s' : ParseState} {arg : CString} :
    parseToken n s (.port arg) = .ok s' ↔ IsPort arg ∧
      s' = { s with
        out := { s.out with filterPort := Int32.ofInt (strtol arg.bytes).value }, anySimpleFilter := true } := by
  unfold parseToken
  rw [bind_eq_ok]
  constructor
  · rintro ⟨port,hport,hs⟩
    obtain ⟨hok,rfl⟩ := parsePort_ok_iff.mp hport
    exact ⟨hok,(Except.ok.inj hs).symm⟩
  · rintro ⟨hok,rfl⟩
    exact ⟨_,parsePort_ok_iff.mpr ⟨hok,rfl⟩,rfl⟩

/-- An option is accepted whatever came before it. -/
def Acceptable (t : Token) : Prop :=
  isError t = false ∧ (∀ arg, portArgument t = some arg → IsPort arg) ∧
    ∀ arg, formatArgument t = some arg → IsFormat arg

theorem parseToken_accepts : Accepts (parseToken n) Acceptable := by
  intro s t
  cases t with
  | port arg =>
    simp only [parseToken_port_iff]
    simp [Acceptable, isError, portArgument, formatArgument]
  | format arg =>
    simp only [parseToken_format_iff]
    simp [Acceptable, isError, portArgument, formatArgument]
  | unrecognized optopt optind word => simp [parseToken, Acceptable, isError]
  | _ => simp [parseToken, Acceptable, isError, portArgument, formatArgument]

/-- How far an option raises the log level. -/
def verbosityWeight : Token → ℕ
  | .verbosity => 1
  | .debug => 3
  | _ => 0

/-- What one option does to the state of the loop. -/
structure Stepped (s : ParseState) (t : Token) (s' : ParseState) : Prop where
  interface : s'.haveInterface = (s.haveInterface || (StringOption.interface.argument t).isSome)
  readFile : s'.haveReadFile = (s.haveReadFile || (StringOption.read.argument t).isSome)
  simpleFilter : s'.anySimpleFilter = (s.anySimpleFilter || isSimpleFilter t)
  help : s'.out.showHelp = (s.out.showHelp || decide (t = .help))
  version : s'.out.showVersion = (s.out.showVersion || decide (t = .version))
  listInterfaces : s'.out.listInterfaces = (s.out.listInterfaces || decide (t = .listInterfaces))
  inputMode : s'.out.inputMode = s.out.inputMode
  format : s'.out.format = ((formatArgument t).map formatOf).getD s.out.format
  port : s'.out.filterPort =
    ((portArgument t).map fun arg => Int32.ofInt (strtol arg.bytes).value).getD s.out.filterPort
  level : logNumber s'.out.logLevel = min 3 (logNumber s.out.logLevel + verbosityWeight t)

theorem logNumber_le (level : LogLevel) : logNumber level ≤ 3 := by
  cases level <;> decide

theorem logNumber_raise (level : LogLevel) : logNumber level.raise = min 3 (logNumber level + 1) := by
  cases level <;> rfl

theorem parseToken_stepped {s s' : ParseState} {t : Token} (h : parseToken n s t = .ok s') : Stepped s t s' := by
  have hkeep := Nat.min_eq_right (logNumber_le s.out.logLevel)
  cases t with
  | port arg =>
    obtain ⟨-,rfl⟩ := parseToken_port_iff.mp h
    constructor <;> simp [StringOption.argument, isSimpleFilter, portArgument, formatArgument, verbosityWeight, hkeep]
  | format arg =>
    obtain ⟨-,rfl⟩ := parseToken_format_iff.mp h
    constructor <;> simp [StringOption.argument, isSimpleFilter, portArgument, formatArgument, verbosityWeight, hkeep]
  | unrecognized optopt optind word => cases h
  | verbosity =>
    obtain rfl := Except.ok.inj h
    constructor <;> simp [StringOption.argument, isSimpleFilter, portArgument, formatArgument, verbosityWeight, logNumber_raise]
  | debug =>
    obtain rfl := Except.ok.inj h
    constructor <;> simp [StringOption.argument, isSimpleFilter, portArgument, formatArgument, verbosityWeight, logNumber]
  | _ =>
    obtain rfl := Except.ok.inj h
    constructor <;> simp [StringOption.argument, isSimpleFilter, portArgument, formatArgument, verbosityWeight, hkeep]

end Step

/-! ## The option loop -/

section Loop
variable {n : ℕ} {tokens : List Token} {s : ParseState}

theorem any_isSome (o : StringOption) (tokens : List Token) :
    (tokens.any fun t => (o.argument t).isSome) = true ↔ Given o tokens := by
  rw [Given, arguments, ne_eq, List.filterMap_eq_nil_iff, List.any_eq_true]
  simp only [Option.isSome_iff_ne_none, not_forall, exists_prop]

/-- The state behind the loop, by the options that were given. -/
structure Looped (tokens : List Token) (s : ParseState) : Prop where
  interface : s.haveInterface = true ↔ Given .interface tokens
  readFile : s.haveReadFile = true ↔ Given .read tokens
  simpleFilter : s.anySimpleFilter = true ↔ ∃ t ∈ tokens, isSimpleFilter t = true
  rawFilter : s.out.hasRawFilter = true ↔ Given .filter tokens
  help : s.out.showHelp = true ↔ .help ∈ tokens
  version : s.out.showVersion = true ↔ .version ∈ tokens
  listInterfaces : s.out.listInterfaces = true ↔ .listInterfaces ∈ tokens
  inputMode : s.out.inputMode = .none
  format : s.out.format = (tokens.filterMap fun t => (formatArgument t).map formatOf).getLast?.getD .text
  output : s.out.outputFile = ((arguments .output tokens).getLast?.map copyStr).getD .empty
  port : s.out.filterPort = (tokens.filterMap fun t =>
    (portArgument t).map fun arg => Int32.ofInt (strtol arg.bytes).value).getLast?.getD (-1)
  level : logNumber s.out.logLevel = min 3 (1 + (tokens.map verbosityWeight).sum)

theorem foldlM_parseToken_looped (h : tokens.foldlM (parseToken n) initialState = .ok s) : Looped tokens s := by
  have htracks := foldlM_parseToken_tracks h
  have flag : ∀ {read : ParseState → Bool} {sets : Token → Bool}, Flag (parseToken n) read sets →
      read initialState = false → (read s = true ↔ tokens.any sets = true) := by
    intro read sets hflag hinit
    rw [hflag.run h, hinit, Bool.false_or]
  have member : ∀ t : Token, (tokens.any fun u => decide (u = t)) = true ↔ t ∈ tokens := by
    intro t
    simp
  refine ⟨?_,?_,?_,htracks.hasRawFilter,?_,?_,?_,?_,?_,htracks.field .output,?_,?_⟩
  · exact (flag (fun ht => (parseToken_stepped ht).interface) rfl).trans (any_isSome .interface tokens)
  · exact (flag (fun ht => (parseToken_stepped ht).readFile) rfl).trans (any_isSome .read tokens)
  · exact (flag (fun ht => (parseToken_stepped ht).simpleFilter) rfl).trans List.any_eq_true
  · exact (flag (fun ht => (parseToken_stepped ht).help) rfl).trans (member .help)
  · exact (flag (fun ht => (parseToken_stepped ht).version) rfl).trans (member .version)
  · exact (flag (fun ht => (parseToken_stepped ht).listInterfaces) rfl).trans (member .listInterfaces)
  · have hmode : Register (parseToken n) (fun s => s.out.inputMode) (fun _ => none) :=
      fun ht => (parseToken_stepped ht).inputMode
    have hrun : s.out.inputMode = initialState.out.inputMode := by simpa using hmode.run h
    exact hrun
  · have hformat : Register (parseToken n) (fun s => s.out.format) fun t => (formatArgument t).map formatOf :=
      fun ht => (parseToken_stepped ht).format
    exact hformat.run h
  · have hport : Register (parseToken n) (fun s => s.out.filterPort) fun t =>
        (portArgument t).map fun arg => Int32.ofInt (strtol arg.bytes).value := fun ht => (parseToken_stepped ht).port
    exact hport.run h
  · have hlevel : Gauge (parseToken n) (fun s => logNumber s.out.logLevel) 3 verbosityWeight :=
      fun ht => (parseToken_stepped ht).level
    exact hlevel.run (by decide) h

end Loop

/-! ## The checks behind the loop -/

section Finish
variable {n : ℕ} {s : ParseState}

theorem finishParse_accepts : (∃ config, finishParse n s = .ok config) ↔
    s.out.showHelp = true ∨ s.out.showVersion = true ∨
      (¬(s.haveInterface = true ∧ s.haveReadFile = true) ∧
        ¬(s.out.hasRawFilter = true ∧ s.anySimpleFilter = true) ∧
        (s.out.outputFile.bytes = [] ∨ s.out.format = .json) ∧
        (s.out.listInterfaces = true ∨ s.haveInterface = true ∨ s.haveReadFile = true)) := by
  rw [← or_assoc]
  unfold finishParse
  by_cases hshow : s.out.showHelp = true ∨ s.out.showVersion = true
  · simp [hshow]
  · by_cases hinput : s.haveInterface = true ∧ s.haveReadFile = true
    · simp [hshow, hinput]
    · by_cases hfilter : s.out.hasRawFilter = true ∧ s.anySimpleFilter = true
      · simp [hshow, hinput, hfilter]
      · by_cases houtput : s.out.outputFile.bytes ≠ [] ∧ s.out.format ≠ .json
        · simp [hshow, hinput, hfilter, houtput]
        · have hfree : s.out.outputFile.bytes = [] ∨ s.out.format = .json := by tauto
          rw [if_neg hshow, if_neg hinput, if_neg hfilter, if_neg houtput]
          by_cases hlist : s.out.listInterfaces = true
          · simp [hlist, hinput, hfilter, hfree]
          · by_cases hlive : s.haveInterface = true
            · have hfile : s.haveReadFile = false := by simpa [hlive] using hinput
              simp [hlist, hlive, hfile, hfilter, hfree]
            · by_cases hfile : s.haveReadFile = true
              · simp [hlist, hlive, hfile, hfilter, hfree]
              · simp [hlist, hlive, hfile, hshow]

/-- The run mode of an accepted command line. -/
theorem finishParse_inputMode {config : Config} (h : finishParse n s = .ok config) (hnone : s.out.inputMode = .none) :
    (config.inputMode = .live ↔ s.haveInterface = true ∧
      s.out.showHelp = false ∧ s.out.showVersion = false ∧ s.out.listInterfaces = false) ∧
    (config.inputMode = .file ↔ s.haveReadFile = true ∧
      s.out.showHelp = false ∧ s.out.showVersion = false ∧ s.out.listInterfaces = false) := by
  unfold finishParse at h
  split at h
  · rename_i hshow
    obtain rfl := Except.ok.inj h
    rw [hnone]
    rcases hshow with hh | hv
    · simp [hh]
    · simp [hv]
  · rename_i hshow
    rw [not_or, Bool.not_eq_true, Bool.not_eq_true] at hshow
    split at h
    · cases h
    · rename_i hinput
      split at h
      · cases h
      · split at h
        · cases h
        · split at h
          · rename_i hlist
            obtain rfl := Except.ok.inj h
            simp [hnone, hlist]
          · rename_i hlist
            split at h
            · rename_i hlive
              obtain rfl := Except.ok.inj h
              have hfile : s.haveReadFile = false := by simpa [hlive] using hinput
              simp [hshow, hlist, hlive, hfile]
            · rename_i hlive
              split at h
              · rename_i hfile
                obtain rfl := Except.ok.inj h
                simp [hshow, hlist, hlive, hfile]
              · cases h

end Finish

/-! ## Whole command lines -/

section Whole
variable {n : ℕ} {tokens : List Token} {s : ParseState}

theorem forall_acceptable (tokens : List Token) : (∀ t ∈ tokens, Acceptable t) ↔
    (∀ t ∈ tokens, isError t = false) ∧ (∀ arg ∈ tokens.filterMap portArgument, IsPort arg) ∧
      ∀ arg ∈ tokens.filterMap formatArgument, IsFormat arg := by
  simp only [List.forall_mem_filterMap, Acceptable]
  grind

theorem copyStr_bytes_eq_nil (arg : CString) : (copyStr arg).bytes = [] ↔ arg.bytes = [] := by
  simp [copyStr, CString.cut, snprintf, configStrLen]

theorem compatible_iff (tokens : List Token) : Compatible tokens ↔
    ¬(Given .interface tokens ∧ Given .read tokens) ∧
      ¬(Given .filter tokens ∧ ∃ t ∈ tokens, isSimpleFilter t = true) ∧
      ((lastArgument .output tokens).bytes = [] ∨
        ∃ arg, (tokens.filterMap formatArgument).getLast? = some arg ∧ arg.bytes = ascii "json") ∧
      (.listInterfaces ∈ tokens ∨ Given .interface tokens ∨ Given .read tokens) :=
  ⟨fun ⟨hinput,hfilter,hout,hlist⟩ => ⟨hinput,hfilter,hout,hlist⟩,
    fun ⟨hinput,hfilter,hout,hlist⟩ => ⟨hinput,hfilter,hout,hlist⟩⟩

/-- The combination of the options is what the checks behind the loop accept. -/
theorem Looped.combination (h : Looped tokens s) : (∃ config, finishParse n s = .ok config) ↔
    .help ∈ tokens ∨ .version ∈ tokens ∨ Compatible tokens := by
  have houtput : s.out.outputFile.bytes = [] ↔ (lastArgument .output tokens).bytes = [] := by
    rw [h.output, lastArgument]
    cases (arguments .output tokens).getLast? with
    | none => rfl
    | some arg => exact copyStr_bytes_eq_nil arg
  have hformat : s.out.format = .json ↔
      ∃ arg, (tokens.filterMap formatArgument).getLast? = some arg ∧ arg.bytes = ascii "json" := by
    rw [h.format, ← List.map_filterMap, List.getLast?_map]
    cases (tokens.filterMap formatArgument).getLast? with
    | none => simp
    | some arg => simp [formatOf]
  rw [finishParse_accepts, h.help, h.version, h.interface, h.readFile, h.rawFilter, h.simpleFilter, houtput, hformat,
    h.listInterfaces, compatible_iff]

theorem nsConfigParse_ok_iff {args : CommandLine} {config : Config} : nsConfigParse args n = .ok config ↔
    args.leftover = none ∧
      ∃ s, args.tokens.foldlM (parseToken n) initialState = .ok s ∧ finishParse n s = .ok config := by
  unfold nsConfigParse
  rw [bind_eq_ok]
  cases args.leftover with
  | none => simp
  | some word => simp

/-- Exactly the documented command lines are accepted. -/
theorem nsConfigParse_accepts_iff (args : CommandLine) (n : ℕ) :
    (∃ config, nsConfigParse args n = .ok config) ↔ Documented args := by
  have hloop := (@parseToken_accepts n).run args.tokens initialState
  rw [forall_acceptable] at hloop
  constructor
  · rintro ⟨config,h⟩
    obtain ⟨hleft,s,hs,hfinish⟩ := nsConfigParse_ok_iff.mp h
    obtain ⟨herror,hports,hformats⟩ := hloop.mp ⟨s,hs⟩
    exact ⟨herror,hleft,hports,hformats,(foldlM_parseToken_looped hs).combination.mp ⟨config,hfinish⟩⟩
  · rintro ⟨herror,hleft,hports,hformats,hcombination⟩
    obtain ⟨s,hs⟩ := hloop.mpr ⟨herror,hports,hformats⟩
    obtain ⟨config,hfinish⟩ := (foldlM_parseToken_looped hs).combination.mpr hcombination
    exact ⟨config,nsConfigParse_ok_iff.mpr ⟨hleft,s,hs,hfinish⟩⟩

/-! ## What is read -/

/-- The port of the last option is not cut to 32 bits. -/
theorem Looped.filterPort (h : Looped tokens s) (hports : ∀ arg ∈ tokens.filterMap portArgument, IsPort arg) :
    s.out.filterPort.toInt =
      ((tokens.filterMap portArgument).getLast?.map fun arg => (strtol arg.bytes).value).getD (-1) := by
  rw [h.port, ← List.map_filterMap, List.getLast?_map]
  cases hlast : (tokens.filterMap portArgument).getLast? with
  | none => rfl
  | some arg =>
    obtain ⟨hlow,hhigh⟩ := (hports arg (List.mem_of_getLast? hlast)).bounds
    exact Int32.toInt_ofInt_of_le (by omega) (by omega)

theorem sum_verbosityWeight_of_debug (h : .debug ∈ tokens) : 3 ≤ (tokens.map verbosityWeight).sum :=
  List.single_le_sum (by simp) 3 (List.mem_map.mpr ⟨.debug,h,rfl⟩)

theorem sum_verbosityWeight (h : .debug ∉ tokens) : (tokens.map verbosityWeight).sum = tokens.count .verbosity := by
  induction tokens with
  | nil => rfl
  | cons t tokens ih =>
    rw [List.mem_cons, not_or] at h
    rw [List.map_cons, List.sum_cons, ih h.2, List.count_cons]
    cases t with
    | debug => exact absurd rfl h.1
    | verbosity => simp [verbosityWeight, Nat.add_comm]
    | _ => simp [verbosityWeight]

theorem logNumber_eq_debug {level : LogLevel} (h : logNumber level = 3) : level = .debug := by
  cases level with
  | debug => rfl
  | error | warn | info => cases h

theorem captures_iff (h : Looped tokens s) : Captures tokens ↔
    s.out.showHelp = false ∧ s.out.showVersion = false ∧ s.out.listInterfaces = false := by
  rw [Captures, ← h.help, ← h.version, ← h.listInterfaces, Bool.not_eq_true, Bool.not_eq_true, Bool.not_eq_true]

theorem nsConfigParse_reads {args : CommandLine} {config : Config} (h : nsConfigParse args n = .ok config) :
    Reads args.tokens config := by
  have hports := ((nsConfigParse_accepts_iff args n).mp ⟨config,h⟩).ports
  obtain ⟨-,s,hs,hfinish⟩ := nsConfigParse_ok_iff.mp h
  have hlooped := foldlM_parseToken_looped hs
  obtain ⟨hlive,hfile⟩ := finishParse_inputMode hfinish hlooped.inputMode
  rw [hlooped.interface, ← captures_iff hlooped] at hlive
  rw [hlooped.readFile, ← captures_iff hlooped] at hfile
  obtain ⟨mode,rfl⟩ := finishParse_ok hfinish
  refine ⟨hlive,hfile,hlooped.filterPort hports,?_,?_⟩
  · intro hdebug
    have hsum := sum_verbosityWeight_of_debug hdebug
    have hlevel := hlooped.level
    have hthree : logNumber s.out.logLevel = 3 := by omega
    exact logNumber_eq_debug hthree
  · intro hdebug
    rw [← sum_verbosityWeight hdebug]
    exact hlooped.level

/-- The command lines accepted are the documented ones, and they are read as documented. -/
theorem nsConfigParse_documented (args : CommandLine) (n : ℕ) :
    ((∃ config, nsConfigParse args n = .ok config) ↔ Documented args) ∧
      ∀ config, nsConfigParse args n = .ok config → Reads args.tokens config :=
  ⟨nsConfigParse_accepts_iff args n,fun _ h => nsConfigParse_reads h⟩

end Whole

end Netscope.AcceptedOptions
