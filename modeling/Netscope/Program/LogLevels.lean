import Netscope.CommandLine.AcceptedOptions
import Netscope.Model.SystemCalls

/-! # What the log level changes

`-v` and `--debug` raise the log level and do nothing else: the command line without them is
accepted or refused alike, and the two programs make the same calls in the same order with
the same answers, but for the lines of the log.
-/
namespace Netscope.Calls
open ByteString Numerals PartialMemory Interaction OptionLoop AcceptedOptions StoredArguments

/-! ## The command line -/

section Options

def raisesLevel : Token → Bool
  | .verbosity => true
  | .debug => true
  | _ => false

/-- The command line without `-v` and `--debug`. -/
def withoutVerbosity (args : CommandLine) : CommandLine := { args with tokens := args.tokens.filter fun t => !raisesLevel t }

/-- The configuration with the level that no option raises. -/
def atWarn (config : Config) : Config := { config with logLevel := .warn }

def stateAtWarn (s : ParseState) : ParseState := { s with out := atWarn s.out }

theorem parseToken_ignored (n : ℕ) : Ignored (parseToken n) stateAtWarn raisesLevel where
  accepts s t ht := by
    cases t with
    | verbosity => exact ⟨_,rfl,rfl⟩
    | debug => exact ⟨_,rfl,rfl⟩
    | _ => cases ht
  commutes s t ht := by
    cases t with
    | verbosity => cases ht
    | debug => cases ht
    | port arg =>
      simp only [parseToken]
      cases parsePort arg n <;> rfl
    | format arg =>
      simp only [parseToken]
      split_ifs <;> rfl
    | _ => rfl

theorem finishParse_atWarn (n : ℕ) (s : ParseState) : finishParse n (stateAtWarn s) = (finishParse n s).map atWarn := by
  unfold finishParse stateAtWarn atWarn
  dsimp only
  split_ifs <;> rfl

theorem nsConfigParse_withoutVerbosity (args : CommandLine) (n : ℕ) :
    nsConfigParse (withoutVerbosity args) n = (nsConfigParse args n).map atWarn := by
  have hloop := (parseToken_ignored n).run args.tokens initialState
  have hstart : stateAtWarn initialState = initialState := rfl
  rw [hstart] at hloop
  unfold nsConfigParse withoutVerbosity
  dsimp only
  rw [hloop]
  cases args.tokens.foldlM (parseToken n) initialState with
  | error e => rfl
  | ok s =>
    cases args.leftover with
    | some word => rfl
    | none => exact finishParse_atWarn n s

/-- No option lowers the level. -/
theorem warn_le_logLevel {args : CommandLine} {n : ℕ} {config : Config} (h : nsConfigParse args n = .ok config) :
    LogLevel.warn.ctorIdx ≤ config.logLevel.ctorIdx := by
  obtain ⟨-,s,hloop,hfinish⟩ := nsConfigParse_ok_iff.mp h
  obtain ⟨mode,rfl⟩ := finishParse_ok hfinish
  have hnumber (level : LogLevel) : logNumber level = level.ctorIdx := by cases level <;> rfl
  have hlevel := (foldlM_parseToken_looped hloop).level
  rw [hnumber] at hlevel
  rw [show LogLevel.warn.ctorIdx = 1 from rfl]
  dsimp only
  omega

end Options

/-! ## The calls -/

section Calls
variable {low high : LogLevel}

def logCall : SystemCall → Bool
  | .log _ => true
  | _ => false

/-- The first program is the second one without some lines of the log. -/
abbrev LogsLess {α : Type} (p q : Prog α) : Prop := Omits (fun c => logCall c = true) p q

theorem logsLess_ask {c : SystemCall} {β : Type} {f g : Answer c → Prog β} (h : ∀ r, LogsLess (f r) (g r)) :
    LogsLess (ask c >>= f) (ask c >>= g) := .call c h

theorem logsLess_same {α β : Type} (p : Prog α) {f g : α → Prog β} (h : ∀ a, LogsLess (f a) (g a)) :
    LogsLess (p >>= f) (p >>= g) := (Omits.refl p).bind h

theorem nsLog_logsLess (hle : low.ctorIdx ≤ high.ctorIdx) (level : LogLevel) (message : Bytes) :
    LogsLess (nsLog low level message) (nsLog high level message) := by
  unfold nsLog
  split
  case isTrue =>
    split
    case isTrue => exact .refl _
    case isFalse =>
      refine .skip ?_ fun _ => .done ()
      rfl
  case isFalse hlevel =>
    rw [if_neg (by omega)]
    exact .refl _

theorem resolveLinkType_logsLess (hle : low.ctorIdx ≤ high.ctorIdx) (h : PcapHandle) (n : ℕ) :
    LogsLess (resolveLinkType low h n) (resolveLinkType high h n) :=
  logsLess_ask fun _ => logsLess_ask fun _ => (nsLog_logsLess hle _ _).bind fun _ => .refl _

theorem finishOpen_logsLess (hle : low.ctorIdx ≤ high.ctorIdx) (h : PcapHandle) (bpfFilter : Bytes) (n : ℕ) :
    LogsLess (finishOpen low h bpfFilter n) (finishOpen high h bpfFilter n) :=
  (resolveLinkType_logsLess hle h n).bind fun _ => .refl _

theorem warnActivate_logsLess (hle : low.ctorIdx ≤ high.ctorIdx) (interface : Bytes) (result : ℤ) :
    LogsLess (warnActivate low interface result) (warnActivate high interface result) := by
  unfold warnActivate
  split
  case isTrue => exact logsLess_ask fun _ => nsLog_logsLess hle _ _
  case isFalse => exact .refl _

theorem nsCaptureOpenLive_logsLess (hle : low.ctorIdx ≤ high.ctorIdx) (interface bpfFilter : Bytes) (n : ℕ) :
    LogsLess (nsCaptureOpenLive low interface bpfFilter n) (nsCaptureOpenLive high interface bpfFilter n) := by
  refine logsLess_ask fun created => ?_
  cases created with
  | error e => exact .refl _
  | ok h =>
    refine logsLess_ask fun _ => logsLess_ask fun _ => logsLess_ask fun _ => logsLess_ask fun result => ?_
    split
    case isTrue => exact .refl _
    case isFalse => exact (warnActivate_logsLess hle _ _).bind fun _ => finishOpen_logsLess hle _ _ _

theorem nsCaptureOpenOffline_logsLess (hle : low.ctorIdx ≤ high.ctorIdx) (path bpfFilter : Bytes) (n : ℕ) :
    LogsLess (nsCaptureOpenOffline low path bpfFilter n) (nsCaptureOpenOffline high path bpfFilter n) := by
  refine logsLess_ask fun opened => ?_
  cases opened with
  | error e => exact .refl _
  | ok h => exact finishOpen_logsLess hle _ _ _

variable {rt : Runtime}

/-- With the level out of the way, the configurations agree. -/
theorem capture_atWarn (config : Config) (cap : Capture) (stream : Stream) :
    capture rt (atWarn config) cap stream = capture rt config cap stream := by
  unfold capture
  rfl

theorem openOutput_logsLess (config : Config) (cap : Capture) :
    LogsLess (openOutput rt (atWarn config) cap) (openOutput rt config cap) := by
  change LogsLess (if config.format = .json ∧ config.outputFile.bytes ≠ [] then _ else _) _
  unfold openOutput
  split
  case isTrue =>
    refine logsLess_ask fun opened => ?_
    cases opened with
    | none => exact .refl _
    | some f =>
      change LogsLess (capture rt (atWarn config) cap (.file f)) _
      rw [capture_atWarn]
      exact .refl _
  case isFalse =>
    rw [capture_atWarn]
    exact .refl _

theorem openCapture_logsLess {config : Config} (hle : LogLevel.warn.ctorIdx ≤ config.logLevel.ctorIdx) (bpfExpr : Bytes) :
    LogsLess (openCapture rt (atWarn config) bpfExpr) (openCapture rt config bpfExpr) := by
  have hopen : LogsLess (if config.inputMode = .live then
        nsCaptureOpenLive .warn config.interface.bytes bpfExpr errLen
        else nsCaptureOpenOffline .warn config.readFile.bytes bpfExpr errLen)
      (if config.inputMode = .live then nsCaptureOpenLive config.logLevel config.interface.bytes bpfExpr errLen
        else nsCaptureOpenOffline config.logLevel config.readFile.bytes bpfExpr errLen) := by
    split
    case isTrue => exact nsCaptureOpenLive_logsLess hle _ _ _
    case isFalse => exact nsCaptureOpenOffline_logsLess hle _ _ _
  refine hopen.bind fun opened => ?_
  cases opened with
  | error e => exact .refl _
  | ok cap =>
    change LogsLess (if config.writeFile.bytes ≠ [] then _ else _) (if config.writeFile.bytes ≠ [] then _ else _)
    split
    case isTrue =>
      refine logsLess_same _ fun dumped => ?_
      cases dumped with
      | error e => exact .refl _
      | ok cap' => exact openOutput_logsLess config cap'
    case isFalse => exact openOutput_logsLess config cap

theorem filterAndCapture_logsLess {config : Config} (hle : LogLevel.warn.ctorIdx ≤ config.logLevel.ctorIdx) :
    LogsLess (filterAndCapture rt (atWarn config)) (filterAndCapture rt config) := by
  have hbuilt : builtFilter (atWarn config) = builtFilter config := by
    unfold builtFilter
    rfl
  unfold filterAndCapture
  rw [hbuilt]
  split
  case h_1 => exact .refl _
  case h_2 => exact .refl _
  case h_3 => exact (openCapture_logsLess hle _).bind fun _ => .refl _

theorem runConfig_logsLess {config : Config} (hle : LogLevel.warn.ctorIdx ≤ config.logLevel.ctorIdx) :
    LogsLess (runConfig rt (atWarn config)) (runConfig rt config) := by
  change LogsLess (if config.showHelp then _ else if config.showVersion then _ else if config.listInterfaces then _
    else if config.inputMode = .live then _ else _) _
  unfold runConfig
  split_ifs
  · exact .refl _
  · exact .refl _
  · exact .refl _
  · refine logsLess_same _ fun found => ?_
    cases found with
    | true => exact filterAndCapture_logsLess hle
    | false => exact .refl _
  · exact filterAndCapture_logsLess hle

theorem main_logsLess (args : CommandLine) : LogsLess (main rt (withoutVerbosity args)) (main rt args) := by
  unfold main
  rw [nsConfigParse_withoutVerbosity]
  cases hparse : nsConfigParse args errLen with
  | error e => exact .refl _
  | ok config => exact runConfig_logsLess (warn_le_logLevel hparse)

end Calls

/-! ## Runs -/

/-- The calls without the lines of the log. -/
abbrev unlogged (history : List (Exchange Answer)) : List (Exchange Answer) := Audible (fun c => logCall c = true) history

/-- `-v` and `--debug`, however often and wherever they stand, add lines to the log and change
nothing else: the runs with them and the runs without them have the same results and the same
other calls in the same order, and each run of one kind belongs to a run of the other. -/
theorem verbosity_only_logs (rt : Runtime) (args : CommandLine) :
    (∀ history result, Runs (main rt args) history result → ∃ kept, Runs (main rt (withoutVerbosity args)) kept result ∧
      kept.Sublist history ∧ unlogged kept = unlogged history) ∧
    ∀ history result, Runs (main rt (withoutVerbosity args)) history result → ∃ full, Runs (main rt args) full result ∧
      history.Sublist full ∧ unlogged full = unlogged history := by
  have hless := @main_logsLess rt args
  have hanswer : ∀ c, logCall c = true → Nonempty (Answer c) := by
    intro c hc
    cases c with
    | log line => exact ⟨()⟩
    | _ => cases hc
  exact ⟨fun history result hrun => hless.quieter hrun,fun history result hrun => hless.louder hanswer hrun⟩

end Netscope.Calls
