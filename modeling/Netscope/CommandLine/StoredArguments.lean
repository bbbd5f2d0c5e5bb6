import Netscope.CommandLine.FilterExpression
import Netscope.Model.Main

/-! # What becomes of the string arguments

The string options are copied into buffers of 256 bytes. After the option loop a field
holds the last argument of its option as far as it fits; nothing reports an argument
that does not.
-/
namespace Netscope.StoredArguments
open ByteString Numerals PartialMemory FilterExpression

/-- The options whose argument is kept as a string. -/
inductive StringOption where
  | interface
  | read
  | write
  | output
  | host
  | src
  | dst
  | filter
deriving DecidableEq, Repr

/-- The argument that a token gives to an option. -/
def StringOption.argument : StringOption → Token → Option CString
  | .interface, .interface arg => some arg
  | .read, .read arg => some arg
  | .write, .write arg => some arg
  | .output, .output arg => some arg
  | .host, .host arg => some arg
  | .src, .src arg => some arg
  | .dst, .dst arg => some arg
  | .filter, .filter arg => some arg
  | _, _ => none

/-- The field of an option. -/
def StringOption.field : StringOption → Config → CString
  | .interface, config => config.interface
  | .read, config => config.readFile
  | .write, config => config.writeFile
  | .output, config => config.outputFile
  | .host, config => config.filterHost
  | .src, config => config.filterSrc
  | .dst, config => config.filterDst
  | .filter, config => config.rawFilter

/-- The arguments given to an option, in order. -/
def arguments (o : StringOption) (tokens : List Token) : List CString := tokens.filterMap o.argument

/-- The last argument given to an option, empty if there is none. -/
def lastArgument (o : StringOption) (tokens : List Token) : CString := (arguments o tokens).getLast?.getD .empty

/-! ## The option loop -/

theorem parseToken_port {n : ℕ} {s s' : ParseState} {arg : CString} (h : parseToken n s (.port arg) = .ok s') :
    ∃ port, s' = { s with out := { s.out with filterPort := port }, anySimpleFilter := true } := by
  obtain ⟨port,-,hs⟩ := bind_eq_ok.mp h
  exact ⟨port,(Except.ok.inj hs).symm⟩

theorem parseToken_format {n : ℕ} {s s' : ParseState} {arg : CString} (h : parseToken n s (.format arg) = .ok s') :
    ∃ format, s' = { s with out := { s.out with format := format } } := by
  rw [parseToken] at h
  split at h
  · exact ⟨.json,(Except.ok.inj h).symm⟩
  · split at h
    · exact ⟨.text,(Except.ok.inj h).symm⟩
    · cases h

/-- One iteration stores the argument of its option and leaves the other fields alone. -/
theorem parseToken_field {n : ℕ} {s s' : ParseState} {t : Token} (h : parseToken n s t = .ok s') (o : StringOption) :
    o.field s'.out = ((o.argument t).map copyStr).getD (o.field s.out) := by
  cases t with
  | port arg =>
    obtain ⟨port,rfl⟩ := parseToken_port h
    cases o <;> rfl
  | format arg =>
    obtain ⟨format,rfl⟩ := parseToken_format h
    cases o <;> rfl
  | unrecognized optopt optind word => cases h
  | _ =>
    obtain rfl := Except.ok.inj h
    cases o <;> rfl

theorem parseToken_hasRawFilter {n : ℕ} {s s' : ParseState} {t : Token} (h : parseToken n s t = .ok s') :
    s'.out.hasRawFilter = (s.out.hasRawFilter || (StringOption.filter.argument t).isSome) := by
  cases t with
  | port arg =>
    obtain ⟨port,rfl⟩ := parseToken_port h
    exact (Bool.or_false _).symm
  | format arg =>
    obtain ⟨format,rfl⟩ := parseToken_format h
    exact (Bool.or_false _).symm
  | unrecognized optopt optind word => cases h
  | filter arg =>
    obtain rfl := Except.ok.inj h
    exact (Bool.or_true _).symm
  | _ =>
    obtain rfl := Except.ok.inj h
    exact (Bool.or_false _).symm

/-- No simple filter has been set. -/
structure NoSimpleFilter (config : Config) : Prop where
  tcp : config.filterTcp = false
  udp : config.filterUdp = false
  icmp : config.filterIcmp = false
  port : config.filterPort = -1
  host : config.filterHost = .empty
  src : config.filterSrc = .empty
  dst : config.filterDst = .empty

theorem parseToken_noSimpleFilter {n : ℕ} {s s' : ParseState} {t : Token} (h : parseToken n s t = .ok s')
    (hs : s.anySimpleFilter = false → NoSimpleFilter s.out) : s'.anySimpleFilter = false → NoSimpleFilter s'.out := by
  intro hfalse
  cases t with
  | port arg =>
    obtain ⟨port,rfl⟩ := parseToken_port h
    cases hfalse
  | format arg =>
    obtain ⟨format,rfl⟩ := parseToken_format h
    have hnone := hs hfalse
    exact ⟨hnone.tcp,hnone.udp,hnone.icmp,hnone.port,hnone.host,hnone.src,hnone.dst⟩
  | unrecognized optopt optind word => cases h
  | tcp | udp | icmp | host arg | src arg | dst arg =>
    obtain rfl := Except.ok.inj h
    cases hfalse
  | _ =>
    obtain rfl := Except.ok.inj h
    have hnone := hs hfalse
    exact ⟨hnone.tcp,hnone.udp,hnone.icmp,hnone.port,hnone.host,hnone.src,hnone.dst⟩

/-- What the option loop has made of the tokens it has seen. -/
structure Tracks (seen : List Token) (s : ParseState) : Prop where
  field : ∀ o, o.field s.out = ((arguments o seen).getLast?.map copyStr).getD .empty
  hasRawFilter : s.out.hasRawFilter = true ↔ arguments .filter seen ≠ []
  noSimpleFilter : s.anySimpleFilter = false → NoSimpleFilter s.out

theorem arguments_append (o : StringOption) (seen : List Token) (t : Token) :
    arguments o (seen ++ [t]) = arguments o seen ++ (o.argument t).toList := by
  unfold arguments
  rw [List.filterMap_append]
  cases ht : o.argument t with
  | none => simp [ht]
  | some arg => simp [ht]

theorem initialState_tracks : Tracks [] initialState := by
  refine ⟨?_,?_,fun _ => ⟨rfl,rfl,rfl,rfl,rfl,rfl,rfl⟩⟩
  · intro o
    cases o <;> rfl
  · exact iff_of_false Bool.false_ne_true (fun h => h rfl)

theorem Tracks.step {n : ℕ} {seen : List Token} {s s' : ParseState} {t : Token} (h : Tracks seen s)
    (ht : parseToken n s t = .ok s') : Tracks (seen ++ [t]) s' := by
  refine ⟨?_,?_,parseToken_noSimpleFilter ht h.noSimpleFilter⟩
  · intro o
    rw [parseToken_field ht, arguments_append, h.field]
    cases o.argument t with
    | none => simp
    | some arg => simp
  · rw [parseToken_hasRawFilter ht, arguments_append, Bool.or_eq_true, h.hasRawFilter]
    cases StringOption.filter.argument t with
    | none => simp
    | some arg => simp

theorem foldlM_parseToken_tracks {n : ℕ} {tokens : List Token} {s : ParseState}
    (h : tokens.foldlM (parseToken n) initialState = .ok s) : Tracks tokens s :=
  foldlM_ok_induction initialState_tracks (fun _ _ _ _ hs ht => hs.step ht) h

/-! ## The accepted command line -/

/-- The checks behind the loop set the input mode and nothing else. -/
theorem finishParse_ok {n : ℕ} {s : ParseState} {config : Config} (h : finishParse n s = .ok config) :
    ∃ mode, config = { s.out with inputMode := mode } := by
  unfold finishParse at h
  repeat' split at h
  all_goals first
    | exact ⟨_,(Except.ok.inj h).symm⟩
    | cases h

theorem finishParse_exclusive {n : ℕ} {s : ParseState} {config : Config} (h : finishParse n s = .ok config)
    (hhelp : config.showHelp = false) (hversion : config.showVersion = false) (hraw : config.hasRawFilter = true) :
    s.anySimpleFilter = false := by
  obtain ⟨mode,rfl⟩ := finishParse_ok h
  by_contra hany
  have hboth : s.out.hasRawFilter = true ∧ s.anySimpleFilter = true := ⟨hraw,Bool.not_eq_false _ ▸ hany⟩
  have hneither : ¬(s.out.showHelp = true ∨ s.out.showVersion = true) := by
    rintro (hh | hv)
    · exact Bool.false_ne_true (hhelp.symm.trans hh)
    · exact Bool.false_ne_true (hversion.symm.trans hv)
  unfold finishParse at h
  rw [if_neg hneither] at h
  split at h
  · cases h
  · cases h

theorem nsConfigParse_ok {n : ℕ} {args : CommandLine} {config : Config} (h : nsConfigParse args n = .ok config) :
    ∃ s, Tracks args.tokens s ∧ finishParse n s = .ok config := by
  obtain ⟨s,hloop,hrest⟩ := bind_eq_ok.mp h
  refine ⟨s,foldlM_parseToken_tracks hloop,?_⟩
  cases hl : args.leftover with
  | none =>
    rw [hl] at hrest
    exact hrest
  | some word =>
    rw [hl] at hrest
    cases hrest

/-- The fields of an accepted command line. -/
theorem nsConfigParse_field {n : ℕ} {args : CommandLine} {config : Config} (h : nsConfigParse args n = .ok config)
    (o : StringOption) : o.field config = ((arguments o args.tokens).getLast?.map copyStr).getD .empty := by
  obtain ⟨s,htracks,hfinish⟩ := nsConfigParse_ok h
  obtain ⟨mode,rfl⟩ := finishParse_ok hfinish
  rw [← htracks.field]
  cases o <;> rfl

/-- A raw filter stands alone, unless the run only prints help or version. -/
theorem nsConfigParse_rawFilter {n : ℕ} {args : CommandLine} {config : Config} (h : nsConfigParse args n = .ok config)
    (hhelp : config.showHelp = false) (hversion : config.showVersion = false) (hraw : arguments .filter args.tokens ≠ []) :
    config.hasRawFilter = true ∧ NoSimpleFilter config := by
  obtain ⟨s,htracks,hfinish⟩ := nsConfigParse_ok h
  have hhas := htracks.hasRawFilter.mpr hraw
  obtain ⟨mode,rfl⟩ := finishParse_ok hfinish
  have hnone := htracks.noSimpleFilter (finishParse_exclusive hfinish hhelp hversion hhas)
  exact ⟨hhas,hnone.tcp,hnone.udp,hnone.icmp,hnone.port,hnone.host,hnone.src,hnone.dst⟩

/-! ## The filter of a run -/

/-- The run gets as far as building its capture filter. -/
def ReachesCapture (sys : System) (config : Config) : Prop :=
  config.showHelp = false ∧ config.showVersion = false ∧ config.listInterfaces = false ∧
    (config.inputMode = .live → nsCaptureInterfaceExists sys.pcap config.interface.bytes = true)

def tooLong : Bytes := ascii "capture filter expression is too long"

/-- The filter is built without a fault and read back whole if it fits. -/
theorem nsFilterBuildBpf_loaded (spec : FilterSpec) :
    ∃ ok cells, nsFilterBuildBpf spec (fresh (configStrLen * 2)) = .ok (ok,cells) ∧
      (ok = true ↔ (writtenExpression spec).length < configStrLen * 2) ∧
      (ok = true → loadString cells = .ok (writtenExpression spec)) := by
  obtain ⟨ok,cells,hbuild,hok,hcells⟩ := @nsFilterBuildBpf_spec spec (fresh (configStrLen * 2)) (by rw [fresh_length]; decide)
  rw [fresh_length] at hok hcells
  refine ⟨ok,cells,hbuild,hok,fun h => ?_⟩
  obtain ⟨-,rest,rfl⟩ := hcells h
  apply (loadString_holding _ _).trans
  exact congrArg Except.ok ((cString_eq_self_iff _).mpr (nul_notMem_writtenExpression _))

theorem runConfig_capture {sys : System} {config : Config} (h : ReachesCapture sys config) :
    runConfig sys config = .ok (if (writtenExpression (filterSpec config)).length < configStrLen * 2 then
      openCapture sys config (writtenExpression (filterSpec config)) else failed tooLong) := by
  obtain ⟨hhelp,hversion,hlist,hexists⟩ := h
  have hlive : ¬(config.inputMode = .live ∧ ¬nsCaptureInterfaceExists sys.pcap config.interface.bytes = true) := by
    rintro ⟨hmode,hnot⟩
    exact hnot (hexists hmode)
  obtain ⟨ok,cells,hbuild,hok,hload⟩ := nsFilterBuildBpf_loaded (filterSpec config)
  rw [runConfig, hhelp, hversion, hlist, if_neg Bool.false_ne_true, if_neg Bool.false_ne_true, if_neg Bool.false_ne_true,
    if_neg hlive, hbuild, ok_bind]
  cases ok with
  | false =>
    have hlong := hok.not.mp Bool.false_ne_true
    rw [if_neg hlong]
    rfl
  | true =>
    rw [if_pos (hok.mp rfl)]
    change (loadString _ >>= fun bpfExpr => pure (openCapture sys config bpfExpr)) = _
    rw [hload rfl, ok_bind]
    rfl

theorem runCapture_captureFilter (sys : System) (config : Config) (linkType : LinkType) (bpfExpr stdout : Bytes) :
    (runCapture sys config linkType bpfExpr stdout).captureFilter = some bpfExpr := by
  unfold runCapture
  cases nsCaptureRun sys.pcap errLen with
  | error e => rfl
  | ok u =>
    dsimp only
    split
    · rfl
    · rfl

theorem openCapture_captureFilter (sys : System) (config : Config) (bpfExpr : Bytes) :
    (openCapture sys config bpfExpr).captureFilter = some bpfExpr := by
  unfold openCapture
  generalize (if config.inputMode = .live then nsCaptureOpenLive sys.pcap config.interface.bytes bpfExpr errLen
    else nsCaptureOpenOffline sys.pcap config.readFile.bytes bpfExpr errLen) = opened
  cases opened with
  | error e => rfl
  | ok linkType =>
    change (openOutputs sys config linkType bpfExpr).captureFilter = some bpfExpr
    unfold openOutputs
    generalize (if config.writeFile.bytes ≠ [] then nsCaptureOpenDump sys.pcap config.writeFile.bytes errLen
      else Except.ok ()) = dump
    cases dump with
    | error e => rfl
    | ok u =>
      dsimp only
      split
      · rfl
      · exact runCapture_captureFilter sys config linkType bpfExpr _

theorem main_accepted {sys : System} {args : CommandLine} {config : Config} (h : nsConfigParse args errLen = .ok config) :
    main sys args = runConfig sys config := by
  rw [main, h]

/-- With a raw filter and no other, the expression is the stored filter, even an empty one. -/
theorem writtenExpression_rawFilter {config : Config} (hraw : config.hasRawFilter = true) (hnone : NoSimpleFilter config) :
    writtenExpression (filterSpec config) = config.rawFilter.bytes := by
  have hspec : (filterSpec config).raw = some config.rawFilter := if_pos hraw
  unfold writtenExpression nonEmpty
  rw [hspec, Option.map_some]
  by_cases hempty : config.rawFilter.bytes = []
  · have hpieces : fullPieces (filterSpec config) = [] := by
      obtain ⟨h1,h2,h3,h4,h5,h6,h7⟩ := hnone
      simp only [fullPieces, filterSpec, h1, h2, h3, h4, h5, h6, h7]
      decide
    rw [hempty, cutExpression, hpieces]
    rfl
  · simp [Option.filter, hempty]

/-! ## Arguments that fit -/

theorem copyStr_of_lt {arg : CString} (h : arg.bytes.length < configStrLen) : copyStr arg = arg := by
  obtain ⟨bytes,hnul⟩ := arg
  simp only [copyStr, CString.cut, snprintf_of_lt h]

/-- Nothing of the command line is lost: every field is the last argument of its option,
no argument that exceeds its buffer was accepted, and a raw filter reaches the capture
layer as it was given, unless the run stops because it is too long. -/
structure NeverTruncated (args : CommandLine) (config : Config) : Prop where
  field : ∀ o : StringOption, o.field config = lastArgument o args.tokens
  stored : ∀ o : StringOption, ∀ arg ∈ arguments o args.tokens, arg.bytes.length < configStrLen
  filter : ∀ (sys : System) (e : CString), (arguments .filter args.tokens).getLast? = some e → ReachesCapture sys config →
    main sys args = .ok (failed tooLong) ∨ ∃ outcome, main sys args = .ok outcome ∧ outcome.captureFilter = some e.bytes

theorem field_eq_lastArgument {args : CommandLine} {config : Config} (h : nsConfigParse args errLen = .ok config)
    {o : StringOption} (hshort : ∀ arg ∈ arguments o args.tokens, arg.bytes.length < configStrLen) :
    o.field config = lastArgument o args.tokens := by
  rw [nsConfigParse_field h, lastArgument]
  cases hlast : (arguments o args.tokens).getLast? with
  | none => rfl
  | some arg => exact copyStr_of_lt (hshort arg (List.mem_of_getLast? hlast))

/-- The command line is kept exactly when every string argument is shorter than 256 bytes. -/
theorem neverTruncated_iff (args : CommandLine) (config : Config) (h : nsConfigParse args errLen = .ok config) :
    NeverTruncated args config ↔ ∀ o, ∀ arg ∈ arguments o args.tokens, arg.bytes.length < configStrLen := by
  constructor
  · intro hkept
    exact hkept.stored
  · intro hshort
    refine ⟨fun o => field_eq_lastArgument h (hshort o),hshort,?_⟩
    intro sys e hlast hreach
    have hmem : e ∈ arguments .filter args.tokens := List.mem_of_getLast? hlast
    obtain ⟨hraw,hnone⟩ := nsConfigParse_rawFilter h hreach.1 hreach.2.1 (List.ne_nil_of_mem hmem)
    have hfield : config.rawFilter = e := by
      have heq := field_eq_lastArgument h (hshort .filter)
      rw [lastArgument, hlast] at heq
      exact heq
    have hwritten : writtenExpression (filterSpec config) = e.bytes := by
      rw [writtenExpression_rawFilter hraw hnone, hfield]
    have hlen : e.bytes.length < configStrLen * 2 := lt_trans (hshort .filter e hmem) (by decide)
    right
    refine ⟨_,(main_accepted h).trans (runConfig_capture hreach),?_⟩
    rw [hwritten, if_pos hlen]
    exact openCapture_captureFilter sys config e.bytes

/-! ## A long filter -/

/-- Reading a file with a filter of `n` letters. -/
def filterRun (n : ℕ) : CommandLine where
  tokens := [.read ⟨ascii "a.pcap",by decide⟩,
    .filter ⟨List.replicate n 97,nul_notMem_letters n⟩]
  leftover := none

/-- The configuration of such a run. -/
def filterRunConfig (n : ℕ) : Config :=
  { initialState.out with
    inputMode := .file
    readFile := ⟨ascii "a.pcap",by decide⟩
    rawFilter := copyStr ⟨List.replicate n 97,nul_notMem_letters n⟩
    hasRawFilter := true }

theorem filterRun_accepted (n : ℕ) : nsConfigParse (filterRun n) errLen = .ok (filterRunConfig n) := by
  rfl

theorem neverTruncated_iff_short :
    nsConfigParse (filterRun 3) errLen = .ok (filterRunConfig 3) ∧ (NeverTruncated (filterRun 3) (filterRunConfig 3) ↔
      ∀ o, ∀ arg ∈ arguments o (filterRun 3).tokens, arg.bytes.length < configStrLen) :=
  ⟨filterRun_accepted 3,neverTruncated_iff _ _ (filterRun_accepted 3)⟩

/-- A filter of 300 bytes is accepted, and its first 255 reach the capture layer. -/
theorem longFilter_truncated :
    nsConfigParse (filterRun 300) errLen = .ok (filterRunConfig 300) ∧
      (∀ sys, ∃ outcome, main sys (filterRun 300) = .ok outcome ∧ outcome.captureFilter = some (List.replicate 255 97)) ∧
      ¬NeverTruncated (filterRun 300) (filterRunConfig 300) := by
  refine ⟨filterRun_accepted 300,?_,?_⟩
  · intro sys
    have hreach : ReachesCapture sys (filterRunConfig 300) := ⟨rfl,rfl,rfl,fun h => absurd h (by decide)⟩
    have hwritten : writtenExpression (filterSpec (filterRunConfig 300)) = List.replicate 255 97 := by decide +kernel
    refine ⟨_,(main_accepted (filterRun_accepted 300)).trans (runConfig_capture hreach),?_⟩
    rw [hwritten, if_pos (by decide +kernel)]
    exact openCapture_captureFilter sys _ _
  · intro hkept
    have hlen := hkept.stored .filter _ List.mem_cons_self
    exact absurd hlen (by decide +kernel)

end Netscope.StoredArguments
