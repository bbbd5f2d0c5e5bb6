import Netscope.Program.Resources
import Netscope.Stats.FlowTable

/-! # What becomes of a packet

Between `pcap_loop` and the end of a run stands exactly what the frames lead to: each is
dumped where a dump is asked for and then written as one packet, in the order of the loop
and with its place as its number, also when the loop fails or is broken off. Nothing else is
dumped, and the statistics at the end are those of these packets.
-/
namespace Netscope.Calls
open ByteString Numerals PartialMemory Interaction

/-- The calls that receive and dump packets. -/
def packetCall : SystemCall → Bool
  | .loop _ => true
  | .dump _ _ => true
  | _ => false

/-- What the `i`-th frame leads to. -/
def delivery (rt : Runtime) (opts : OutputOptions) (stream : Stream) (dumper : Option Dumper) (x : PcapFrame × ℕ) :
    List (Exchange Answer) :=
  (dumper.map fun d => (⟨.dump d x.1,()⟩ : Exchange Answer)).toList ++
    [⟨.write stream (nsOutputPacket rt.clock (Netscope.pcapPacketCallback .ethernet x.2 x.1) opts),()⟩]

/-- The texts written to the standard output. -/
def stdoutTexts (history : List (Exchange Answer)) : List Bytes :=
  history.filterMap fun x => match x.call with
    | .write .stdout text => some text
    | _ => none

/-- The packets of the frames. -/
def packetsOf (frames : List PcapFrame) : List Packet := frames.mapIdx (Netscope.pcapPacketCallback .ethernet)

/-- A run that hands frames on, up to its end. -/
structure Delivers (rt : Runtime) (config : Config) (opts : OutputOptions) (stream : Stream) (dumper : Option Dumper)
    (frames : List PcapFrame) (code : ℤ) (history : List (Exchange Answer)) (status : ℕ) : Prop where
  dumps : dumper.isSome = true ↔ config.writeFile.bytes ≠ []
  toFile : (∃ f, stream = .file f) ↔ usesOutputFile config = true
  toTerminal : (∀ f, stream ≠ .file f) → stream = .stdout
  verbose : opts.verbose = config.verboseOutput ∧ opts.quiet = config.quiet ∧ opts.hex = config.hexDump ∧ opts.format = config.format
  noColor : config.noColor = true → opts.color = false
  status : status = if code = -1 then 1 else 0
  split : ∃ opening handle closing,
    history = opening ++ ⟨.loop handle,(frames,code)⟩ :: (frames.zipIdx.flatMap (delivery rt opts stream dumper) ++ closing) ∧
      (∀ x ∈ opening ++ closing, packetCall x.call = false) ∧
      ∃ duration, stdoutTexts closing =
        if code ≠ -1 ∧ (config.showStats = true ∨ config.inputMode = .live) then
          [nsStatsPrint rt.lib (FlowTable.runStats (packetsOf frames)) duration]
        else []

section Callbacks
variable {rt : Runtime} {history : List (Exchange Answer)}

theorem runs_ask {c : SystemCall} {α : Type} {f : Answer c → Prog α} {a : α} (h : Runs (ask c >>= f) history a) :
    ∃ r rest, history = ⟨c,r⟩ :: rest ∧ Runs (f r) rest a := runs_call h

theorem runs_dumpPacket {cap : Capture} {frame : PcapFrame} {u : Unit} (h : Runs (dumpPacket cap frame) history u) :
    history = (cap.dumper.map fun d => (⟨.dump d frame,()⟩ : Exchange Answer)).toList := by
  unfold dumpPacket at h
  cases hd : cap.dumper with
  | none =>
    rw [hd] at h
    exact (runs_done h).1
  | some d =>
    rw [hd] at h
    obtain ⟨⟨⟩,rest,rfl,hrest⟩ := runs_call h
    obtain ⟨rfl,-⟩ := runs_done hrest
    rfl

/-- The capture hands on its `i`-th packet next. -/
def AtFrame (cap : Capture) (i : ℕ) : Prop := cap.linkType = .ethernet ∧ cap.nextPacketNumber = UInt64.ofNat i

/-- One run of the callback. -/
theorem runs_pcapPacketCallback {cap : Capture} {ctx : MainCtx} {frame : PcapFrame} {i : ℕ} {x : Capture × MainCtx}
    (hcap : AtFrame cap i) (h : Runs (pcapPacketCallback (handlePacket rt) cap ctx frame) history x) :
    history = delivery rt ctx.outputOpts ctx.out cap.dumper (frame,i) ∧ (AtFrame x.1 (i + 1) ∧ x.1.dumper = cap.dumper ∧
      x.1.handle = cap.handle) ∧
      x.2 = { ctx with stats := nsStatsUpdate ctx.stats (Netscope.pcapPacketCallback .ethernet i frame) } := by
  obtain ⟨hlink,hnumber⟩ := hcap
  have hnext : cap.nextPacketNumber + 1 = UInt64.ofNat (i + 1) := by
    rw [hnumber, UInt64.ofNat_add]
    rfl
  obtain ⟨front,back,u,rfl,hdump,hrest⟩ := runs_bind.mp h
  obtain rfl := runs_dumpPacket hdump
  obtain ⟨written,rest,ctx',rfl,hhandle,hrest⟩ := runs_bind.mp hrest
  obtain ⟨⟨⟩,rest',rfl,hdone⟩ := runs_call hhandle
  obtain ⟨rfl,rfl⟩ := runs_done hdone
  obtain ⟨rfl,rfl⟩ := runs_done hrest
  have hpkt : nsPacketParse frame.data frame.len frame.ts (cap.nextPacketNumber + 1) cap.linkType =
      Netscope.pcapPacketCallback .ethernet i frame := by
    rw [hnext, hlink]
    rfl
  dsimp only
  rw [hpkt]
  exact ⟨rfl,⟨⟨hlink,hnext⟩,rfl,rfl⟩,rfl⟩

/-- A run of the loop delivers its frames one after another. -/
theorem runs_pcapLoop {cap : Capture} {ctx : MainCtx} {frames : List PcapFrame} {i : ℕ} {x : Capture × MainCtx}
    (hcap : AtFrame cap i) (h : Runs (pcapLoop (handlePacket rt) cap ctx frames) history x) :
    history = (frames.zipIdx i).flatMap (delivery rt ctx.outputOpts ctx.out cap.dumper) ∧
      x.1.dumper = cap.dumper ∧ x.1.handle = cap.handle ∧
      x.2.stats = ((frames.zipIdx i).map fun y => Netscope.pcapPacketCallback .ethernet y.2 y.1).foldl nsStatsUpdate ctx.stats := by
  induction frames generalizing cap ctx i history with
  | nil =>
    obtain ⟨rfl,rfl⟩ := runs_done h
    exact ⟨rfl,rfl,rfl,rfl⟩
  | cons frame rest ih =>
    obtain ⟨front,back,y,rfl,hfirst,hrest⟩ := runs_bind.mp h
    obtain ⟨rfl,⟨hy,hdumper,hhandle⟩,hctx⟩ := runs_pcapPacketCallback hcap hfirst
    obtain ⟨rfl,hdumper',hhandle',hstats⟩ := ih hy hrest
    refine ⟨?_,hdumper'.trans hdumper,hhandle'.trans hhandle,?_⟩
    · rw [List.zipIdx_cons, List.flatMap_cons, hctx, hdumper]
    · rw [hstats, hctx]
      rfl

end Callbacks

/-! ## The calls before the loop -/

section Before
variable {α β : Type} {p : Prog α} {f : α → Prog β} {post : α → Prop} {goal : β → Prop}

/-- The program neither receives nor dumps a packet. -/
abbrev Idle (p : Prog α) (post : α → Prop) : Prop := Spares packetCall p post

theorem idle_ask {c : SystemCall} {f : Answer c → Prog β} (hc : packetCall c = false) (h : ∀ r, Idle (f r) goal) :
    Idle (ask c >>= f) goal := spares_call hc h

/-- A call at the end of a function. -/
theorem idle_last {c : SystemCall} (hc : packetCall c = false) : Idle (ask c) fun _ => True := spares_call hc fun _ => trivial

theorem idle_fprintf (stream : Stream) (text : Bytes) : Idle (fprintf stream text) fun _ => True := idle_last rfl

theorem idle_nsLog (logLevel level : LogLevel) (message : Bytes) : Idle (nsLog logLevel level message) fun _ => True := by
  unfold nsLog
  split
  case isTrue => exact spares_done trivial
  case isFalse => exact idle_last rfl

theorem idle_applyFilter (h : PcapHandle) (bpfFilter : Bytes) (n : ℕ) : Idle (applyFilter h bpfFilter n) fun _ => True := by
  unfold applyFilter
  split
  case isTrue => exact spares_done trivial
  case isFalse =>
    refine idle_ask rfl fun compiled => ?_
    cases compiled with
    | none => exact idle_ask rfl fun _ => spares_done trivial
    | some program =>
      refine idle_ask rfl fun result => idle_ask rfl fun _ => ?_
      split
      case isTrue => exact idle_ask rfl fun _ => spares_done trivial
      case isFalse => exact spares_done trivial

/-- What an opened capture begins with. -/
def Begins (opened : Except Bytes Capture) : Prop := ∀ cap, opened = .ok cap → AtFrame cap 0 ∧ cap.dumper = none

theorem begins_error (e : Bytes) : Begins (.error e) := nofun

theorem idle_finishOpen (logLevel : LogLevel) (h : PcapHandle) (bpfFilter : Bytes) (n : ℕ) :
    Idle (finishOpen logLevel h bpfFilter n) Begins := by
  have hresolve : Idle (resolveLinkType logLevel h n) fun resolved => ∀ linkType, resolved = .ok linkType → linkType = .ethernet := by
    refine idle_ask rfl fun dlt => idle_ask rfl fun name => (idle_nsLog _ _ _).bind fun _ _ => ?_
    split
    case isTrue => exact idle_ask rfl fun _ => spares_done nofun
    case isFalse => exact spares_done fun linkType h => (Except.ok.inj h).symm
  refine hresolve.bind fun resolved hethernet => ?_
  cases resolved with
  | error e => exact idle_ask rfl fun _ => spares_done (begins_error e)
  | ok linkType =>
    refine (idle_applyFilter h bpfFilter n).bind fun applied _ => ?_
    cases applied with
    | error e => exact idle_ask rfl fun _ => spares_done (begins_error e)
    | ok _ =>
      refine spares_done fun cap hcap => ?_
      obtain rfl := Except.ok.inj hcap
      exact ⟨⟨hethernet linkType rfl,rfl⟩,rfl⟩

theorem idle_nsCaptureOpenOffline (logLevel : LogLevel) (path bpfFilter : Bytes) (n : ℕ) :
    Idle (nsCaptureOpenOffline logLevel path bpfFilter n) Begins := by
  refine idle_ask rfl fun opened => ?_
  cases opened with
  | error e => exact spares_done (begins_error _)
  | ok h => exact idle_finishOpen logLevel h bpfFilter n

theorem idle_nsCaptureOpenLive (logLevel : LogLevel) (interface bpfFilter : Bytes) (n : ℕ) :
    Idle (nsCaptureOpenLive logLevel interface bpfFilter n) Begins := by
  have hwarn (result : ℤ) : Idle (warnActivate logLevel interface result) fun _ => True := by
    unfold warnActivate
    split
    case isTrue => exact idle_ask rfl fun _ => idle_nsLog _ _ _
    case isFalse => exact spares_done trivial
  refine idle_ask rfl fun created => ?_
  cases created with
  | error e => exact spares_done (begins_error _)
  | ok h =>
    refine idle_ask rfl fun _ => idle_ask rfl fun _ => idle_ask rfl fun _ => idle_ask rfl fun result => ?_
    split
    case isTrue => exact idle_ask rfl fun _ => idle_ask rfl fun _ => spares_done (begins_error _)
    case isFalse => exact (hwarn result).bind fun _ _ => idle_finishOpen logLevel h bpfFilter n

theorem idle_nsCaptureOpenDump (cap : Capture) (path : Bytes) (n : ℕ) : Idle (nsCaptureOpenDump cap path n) fun opened =>
    ∀ cap', opened = .ok cap' → ∃ d, cap' = { cap with dumper := some d } := by
  refine idle_ask rfl fun opened => ?_
  cases opened with
  | none => exact idle_ask rfl fun _ => spares_done nofun
  | some d => exact spares_done fun cap' h => ⟨⟨d,path⟩,(Except.ok.inj h).symm⟩

end Before

/-! ## The calls behind the loop -/

section After

/-- The packet calls and those that write to the standard output. -/
def loudCall : SystemCall → Bool
  | .write .stdout _ => true
  | c => packetCall c

theorem packetCall_of_loudCall (c : SystemCall) (h : loudCall c = false) : packetCall c = false := by
  unfold loudCall at h
  split at h
  case h_1 => cases h
  case h_2 => exact h

theorem stdoutTexts_of_loudCall {history : List (Exchange Answer)} (h : ∀ x ∈ history, loudCall x.call = false) :
    stdoutTexts history = [] := by
  refine List.filterMap_eq_nil_iff.mpr fun x hx => ?_
  split
  case h_1 text hcall =>
    have hx := h x hx
    rw [hcall] at hx
    cases hx
  case h_2 => rfl

theorem silent_nsCaptureClose (cap : Capture) : Spares loudCall (nsCaptureClose cap) fun _ => True := by
  have hdump : Spares loudCall (closeDump cap) fun _ => True := by
    unfold closeDump
    split
    case h_1 => exact spares_call rfl fun _ => trivial
    case h_2 => exact spares_done trivial
  exact hdump.bind fun _ _ => spares_call rfl fun _ => trivial

theorem silent_closeOutput (stream : Stream) : Spares loudCall (closeOutput stream) fun _ => True := by
  cases stream with
  | file f => exact spares_call rfl fun _ => trivial
  | _ => exact spares_done trivial

theorem silent_stop (message : Bytes) : Spares loudCall (stop message) fun status => status = 1 :=
  spares_call rfl fun _ => spares_done rfl

theorem idle_nsCaptureClose (cap : Capture) : Idle (nsCaptureClose cap) fun _ => True :=
  (silent_nsCaptureClose cap).relax packetCall_of_loudCall

theorem idle_stop (message : Bytes) : Idle (stop message) fun status => status = 1 :=
  (silent_stop message).relax packetCall_of_loudCall

end After

/-! ## The loop and the end -/

section Capturing
variable {rt : Runtime} {config : Config} {history : List (Exchange Answer)} {status : ℕ}

/-- A run of `ns_capture_run`: the frames, the result of the loop and what follows from it. -/
theorem runs_nsCaptureRun {cap : Capture} {ctx : MainCtx} {x : Except Bytes Unit × Capture × MainCtx} (hcap : AtFrame cap 0)
    (h : Runs (nsCaptureRun (handlePacket rt) cap ctx errLen) history x) :
    ∃ opening frames code closing, history = opening ++ ⟨.loop cap.handle,(frames,code)⟩ ::
        (frames.zipIdx.flatMap (delivery rt ctx.outputOpts ctx.out cap.dumper) ++ closing) ∧
      (∀ y ∈ opening, packetCall y.call = false) ∧ (∀ y ∈ closing, loudCall y.call = false) ∧
      (x.1.isOk = true ↔ code ≠ -1) ∧ x.2.2.stats = (packetsOf frames).foldl nsStatsUpdate ctx.stats := by
  obtain ⟨_,back₁,rfl,h₁⟩ := runs_ask h
  obtain ⟨⟨frames,code⟩,back₂,rfl,h₂⟩ := runs_ask h₁
  obtain ⟨front,back₃,y,rfl,hloop,h₃⟩ := runs_bind.mp h₂
  obtain ⟨rfl,-,-,hstats⟩ := runs_pcapLoop hcap hloop
  obtain ⟨_,back₄,rfl,h₄⟩ := runs_ask h₃
  have hpackets : y.2.stats = (packetsOf frames).foldl nsStatsUpdate ctx.stats := by
    rw [hstats, packetsOf, List.mapIdx_eq_zipIdx_map]
  by_cases hcode : code = -1
  · rw [if_pos hcode] at h₄
    obtain ⟨e,back₅,rfl,h₅⟩ := runs_ask h₄
    obtain ⟨rfl,rfl⟩ := runs_done h₅
    refine ⟨[_],frames,code,[_,_],rfl,by simp [packetCall],by simp [loudCall, packetCall],?_,hpackets⟩
    exact iff_of_false Bool.false_ne_true fun h => h hcode
  · rw [if_neg hcode] at h₄
    obtain ⟨rfl,rfl⟩ := runs_done h₄
    exact ⟨[_],frames,code,[_],rfl,by simp [packetCall],by simp [loudCall, packetCall],iff_of_true rfl hcode,hpackets⟩

/-- The last lines of `main`: the message of a failure, or the statistics. -/
theorem runs_finish {ran : Except Bytes Unit} {stats : Stats} {duration : Bytes}
    (h : Runs (match ran with
      | .error e => stop e
      | .ok () => printStats rt config stats duration >>= fun _ => pure 0) history status) :
    (∀ x ∈ history, packetCall x.call = false) ∧ (status = if ran.isOk then 0 else 1) ∧
      stdoutTexts history = if ran.isOk ∧ (config.showStats = true ∨ config.inputMode = .live) then
        [nsStatsPrint rt.lib stats duration] else [] := by
  cases ran with
  | error e =>
    obtain ⟨hloud,hstatus⟩ := (silent_stop e).runs h
    exact ⟨fun x hx => packetCall_of_loudCall _ (hloud x hx),hstatus,stdoutTexts_of_loudCall hloud⟩
  | ok u =>
    obtain ⟨front,back,_,rfl,hprint,hdone⟩ := runs_bind.mp h
    obtain ⟨rfl,rfl⟩ := runs_done hdone
    unfold printStats at hprint
    by_cases hstats : config.showStats = true ∨ config.inputMode = .live
    · rw [if_pos hstats] at hprint
      obtain ⟨_,rest,rfl,hrest⟩ := runs_call hprint
      obtain ⟨rfl,-⟩ := runs_done hrest
      refine ⟨by simp [packetCall],rfl,?_⟩
      rw [if_pos ⟨rfl,hstats⟩]
      rfl
    · rw [if_neg hstats] at hprint
      obtain ⟨rfl,-⟩ := runs_done hprint
      refine ⟨by simp,rfl,?_⟩
      rw [if_neg fun h => hstats h.2]
      rfl

theorem idle_printBanner (config : Config) : Idle (printBanner config) fun _ => True := by
  unfold printBanner
  split
  case isTrue => exact idle_fprintf _ _
  case isFalse => exact spares_done trivial

theorem idle_nsOutputShouldUseColor (noColor : Bool) (stream : Stream) :
    Idle (nsOutputShouldUseColor noColor stream) fun color => noColor = true → color = false := by
  unfold nsOutputShouldUseColor
  split
  case isTrue => exact spares_done fun _ => rfl
  case isFalse hno => exact spares_call rfl fun color h => absurd h hno

theorem runs_capture {cap : Capture} {stream : Stream} (hcap : AtFrame cap 0)
    (hdumper : cap.dumper.isSome = true ↔ config.writeFile.bytes ≠ [])
    (hfile : (∃ f, stream = .file f) ↔ usesOutputFile config = true) (hterminal : (∀ f, stream ≠ .file f) → stream = .stdout)
    (h : Runs (capture rt config cap stream) history status) :
    ∃ opts dumper frames code, Delivers rt config opts stream dumper frames code history status := by
  obtain ⟨front₁,back₁,color,rfl,hcolor,h₁⟩ := runs_bind.mp h
  obtain ⟨front₂,back₂,u,rfl,hbanner,h₂⟩ := runs_bind.mp h₁
  obtain ⟨_,back₃,rfl,h₃⟩ := runs_ask h₂
  obtain ⟨startTime,back₄,rfl,h₄⟩ := runs_ask h₃
  obtain ⟨front₅,back₅,x,rfl,hrun,h₅⟩ := runs_bind.mp h₄
  obtain ⟨endTime,back₆,rfl,h₆⟩ := runs_ask h₅
  obtain ⟨front₇,back₇,_,rfl,hclose,h₇⟩ := runs_bind.mp h₆
  obtain ⟨front₈,back₈,_,rfl,hcloseOutput,h₈⟩ := runs_bind.mp h₇
  obtain ⟨hidle₁,hnoColor⟩ := (idle_nsOutputShouldUseColor _ _).runs hcolor
  obtain ⟨hidle₂,-⟩ := (idle_printBanner config).runs hbanner
  obtain ⟨opening,frames,code,closing,rfl,hopening,hclosing,hok,hstats⟩ := runs_nsCaptureRun hcap hrun
  obtain ⟨hsilent₇,-⟩ := (silent_nsCaptureClose _).runs hclose
  obtain ⟨hsilent₈,-⟩ := (silent_closeOutput _).runs hcloseOutput
  obtain ⟨hidle₉,hstatus,htexts⟩ := runs_finish h₈
  have hidle {part : List (Exchange Answer)} (hsilent : ∀ y ∈ part, loudCall y.call = false) :
      ∀ y ∈ part, packetCall y.call = false := fun y hy => packetCall_of_loudCall _ (hsilent y hy)
  have hsilent : ∀ y ∈ closing ++ ((⟨.clockGettime,endTime⟩ : Exchange Answer) :: (front₇ ++ front₈)), loudCall y.call = false := by
    simp only [List.forall_mem_append, List.forall_mem_cons]
    exact ⟨hclosing,rfl,hsilent₇,hsilent₈⟩
  refine ⟨⟨color,config.verboseOutput,config.quiet,config.hexDump,config.format⟩,cap.dumper,frames,code,hdumper,hfile,hterminal,
    ⟨rfl,rfl,rfl,rfl⟩,hnoColor,?_,
    front₁ ++ (front₂ ++ (⟨.installSignalHandlers,()⟩ :: ⟨.clockGettime,startTime⟩ :: opening)),cap.handle,
    (closing ++ (⟨.clockGettime,endTime⟩ :: (front₇ ++ front₈))) ++ back₈,?_,?_,rt.duration startTime endTime,?_⟩
  · rw [hstatus]
    by_cases hcode : code = -1 <;> simp_all
  · simp only [List.append_assoc, List.cons_append]
  · simp only [List.forall_mem_append, List.forall_mem_cons]
    exact ⟨⟨hidle₁,hidle₂,rfl,rfl,hopening⟩,⟨hidle hclosing,rfl,hidle hsilent₇,hidle hsilent₈⟩,hidle₉⟩
  · rw [stdoutTexts, List.filterMap_append]
    have hnone := stdoutTexts_of_loudCall hsilent
    rw [stdoutTexts] at hnone htexts
    rw [hnone, htexts, hstats, List.nil_append]
    simp only [hok]
    rfl

/-- A run of what comes before the loop, and then of a part that may enter it. -/
theorem Delivers.after {opts : OutputOptions} {stream : Stream} {dumper : Option Dumper} {frames : List PcapFrame} {code : ℤ}
    {front back : List (Exchange Answer)} (hfront : ∀ x ∈ front, packetCall x.call = false)
    (h : Delivers rt config opts stream dumper frames code back status) :
    Delivers rt config opts stream dumper frames code (front ++ back) status := by
  obtain ⟨opening,handle,closing,rfl,hidle,hstats⟩ := h.split
  refine { h with split := ⟨front ++ opening,handle,closing,by simp,?_,hstats⟩ }
  rw [List.append_assoc, List.forall_mem_append]
  exact ⟨hfront,hidle⟩

/-- The run receives and dumps no packet, or it delivers the packets of its loop. -/
def Accounted (rt : Runtime) (config : Config) (history : List (Exchange Answer)) (status : ℕ) : Prop :=
  (∀ x ∈ history, packetCall x.call = false) ∨
    ∃ opts stream dumper frames code, Delivers rt config opts stream dumper frames code history status

theorem Accounted.after {front back : List (Exchange Answer)} (hfront : ∀ x ∈ front, packetCall x.call = false)
    (h : Accounted rt config back status) : Accounted rt config (front ++ back) status := by
  rcases h with h | ⟨opts,stream,dumper,frames,code,h⟩
  · exact .inl (List.forall_mem_append.mpr ⟨hfront,h⟩)
  · exact .inr ⟨opts,stream,dumper,frames,code,h.after hfront⟩

theorem runs_openOutput {cap : Capture} (hcap : AtFrame cap 0) (hdumper : cap.dumper.isSome = true ↔ config.writeFile.bytes ≠ [])
    (h : Runs (openOutput rt config cap) history status) : Accounted rt config history status := by
  unfold openOutput at h
  by_cases huse : config.format = .json ∧ config.outputFile.bytes ≠ []
  · have huse' : usesOutputFile config = true := by simpa [usesOutputFile] using huse
    rw [if_pos huse] at h
    obtain ⟨opened,back,rfl,hrest⟩ := runs_ask h
    cases opened with
    | none =>
      have hidle : Idle (do
          fprintf .stderr (printError (snprintf 512 (ascii "failed to open '" ++ config.outputFile.bytes ++ ascii "' for writing")))
          nsCaptureClose cap
          return 1 : Prog ℕ) fun _ => True :=
        (idle_fprintf _ _).bind fun _ _ => (idle_nsCaptureClose cap).bind fun _ _ => spares_done trivial
      exact .inl (List.forall_mem_cons.mpr ⟨rfl,(hidle.runs hrest).1⟩)
    | some f =>
      obtain ⟨opts,dumper,frames,code,hcapture⟩ :=
        runs_capture hcap hdumper (iff_of_true ⟨f,rfl⟩ huse') (fun hnot => absurd rfl (hnot f)) hrest
      have hopen : ∀ x ∈ [(⟨.fopen config.outputFile.bytes,some f⟩ : Exchange Answer)], packetCall x.call = false := by
        simp [packetCall]
      exact .inr ⟨opts,.file f,dumper,frames,code,hcapture.after hopen⟩
  · have huse' : ¬usesOutputFile config = true := by simpa [usesOutputFile] using huse
    rw [if_neg huse] at h
    obtain ⟨opts,dumper,frames,code,hcapture⟩ := runs_capture hcap hdumper (iff_of_false (by simp) huse') (fun _ => rfl) h
    exact .inr ⟨opts,.stdout,dumper,frames,code,hcapture⟩

theorem runs_openCapture {bpfExpr : Bytes} (h : Runs (openCapture rt config bpfExpr) history status) :
    Accounted rt config history status := by
  have hopen : Idle (if config.inputMode = .live then
      nsCaptureOpenLive config.logLevel config.interface.bytes bpfExpr errLen
      else nsCaptureOpenOffline config.logLevel config.readFile.bytes bpfExpr errLen) Begins := by
    split
    case isTrue => exact idle_nsCaptureOpenLive _ _ _ _
    case isFalse => exact idle_nsCaptureOpenOffline _ _ _ _
  obtain ⟨front,back,opened,rfl,hopened,h⟩ := runs_bind.mp h
  obtain ⟨hfront,hbegins⟩ := hopen.runs hopened
  refine Accounted.after hfront ?_
  cases opened with
  | error e => exact .inl ((idle_stop e).runs h).1
  | ok cap =>
    obtain ⟨hcap,hdumper⟩ := hbegins cap rfl
    dsimp only at h
    by_cases hwrite : config.writeFile.bytes ≠ []
    · rw [if_pos hwrite] at h
      obtain ⟨front,back,dumped,rfl,hdumped,hrest⟩ := runs_bind.mp h
      obtain ⟨hfront,hdump⟩ := (idle_nsCaptureOpenDump _ _ _).runs hdumped
      refine Accounted.after hfront ?_
      cases dumped with
      | error e =>
        have hidle : Idle (do
            fprintf .stderr (printError e)
            nsCaptureClose cap
            return 1 : Prog ℕ) fun _ => True :=
          (idle_fprintf _ _).bind fun _ _ => (idle_nsCaptureClose cap).bind fun _ _ => spares_done trivial
        exact .inl (hidle.runs hrest).1
      | ok cap' =>
        obtain ⟨d,rfl⟩ := hdump cap' rfl
        exact @runs_openOutput rt config back status { cap with dumper := some d } hcap (iff_of_true rfl hwrite) hrest
    · rw [if_neg hwrite] at h
      exact runs_openOutput hcap (iff_of_false (by simp [hdumper]) hwrite) h

theorem idle_printDevices (out : Stream) (all : List Device) (devices : List (ℕ × Device)) :
    Idle (printDevices out all devices) fun _ => True := by
  induction devices with
  | nil => exact spares_done trivial
  | cons x rest ih => exact idle_ask rfl fun _ => (idle_fprintf _ _).bind fun _ _ => ih

theorem idle_nsCaptureListInterfaces (out : Stream) : Idle (nsCaptureListInterfaces out) fun _ => True := by
  refine idle_ask rfl fun found => ?_
  match found with
  | .error e => exact spares_done trivial
  | .ok [] => exact (idle_fprintf _ _).bind fun _ _ => spares_done trivial
  | .ok (dev :: rest) =>
    refine (idle_fprintf _ _).bind fun _ _ => (idle_printDevices _ _ _).bind fun _ _ => ?_
    exact idle_ask rfl fun _ => spares_done trivial

theorem idle_findDevice (name : Bytes) (all : List Device) (devices : List (ℕ × Device)) :
    Idle (findDevice name all devices) fun _ => True := by
  induction devices with
  | nil => exact spares_done trivial
  | cons x rest ih =>
    refine idle_ask rfl fun _ => ?_
    split
    case isTrue => exact spares_done trivial
    case isFalse => exact ih

theorem idle_nsCaptureInterfaceExists (name : Bytes) : Idle (nsCaptureInterfaceExists name) fun _ => True := by
  refine idle_ask rfl fun found => ?_
  cases found with
  | error e => exact spares_done trivial
  | ok devices => exact (idle_findDevice name _ _).bind fun _ _ => idle_ask rfl fun _ => spares_done trivial

end Capturing

/-! ## Whole runs -/

section Whole
variable {rt : Runtime} {args : CommandLine} {config : Config} {history : List (Exchange Answer)} {result : Exec ℕ}

/-- Nothing but the capture makes packet calls, so a run is accounted for once its capture is. -/
def AccountedRun (rt : Runtime) (config : Config) (history : List (Exchange Answer)) (result : Exec ℕ) : Prop :=
  (∀ x ∈ history, packetCall x.call = false) ∨
    ∃ opts stream dumper frames code status, result = .ok status ∧
      Delivers rt config opts stream dumper frames code history status

theorem runs_filterAndCapture (h : Runs (filterAndCapture rt config) history result) : AccountedRun rt config history result := by
  unfold filterAndCapture at h
  split at h
  case h_1 =>
    obtain ⟨rfl,-⟩ := runs_done h
    exact .inl (by simp)
  case h_2 => exact .inl (((idle_stop _).bind fun _ _ => spares_done trivial : Idle (Except.ok <$> stop _) fun _ => True).runs h).1
  case h_3 expr _ =>
    obtain ⟨front,back,status,rfl,hcapture,hdone⟩ := runs_bind.mp h
    obtain ⟨rfl,rfl⟩ := runs_done hdone
    rw [List.append_nil]
    rcases runs_openCapture hcapture with hidle | ⟨opts,stream,dumper,frames,code,hdelivers⟩
    · exact .inl hidle
    · exact .inr ⟨opts,stream,dumper,frames,code,status,rfl,hdelivers⟩

theorem AccountedRun.after {front back : List (Exchange Answer)} (hfront : ∀ x ∈ front, packetCall x.call = false)
    (h : AccountedRun rt config back result) : AccountedRun rt config (front ++ back) result := by
  rcases h with h | ⟨opts,stream,dumper,frames,code,status,hresult,h⟩
  · exact .inl (List.forall_mem_append.mpr ⟨hfront,h⟩)
  · exact .inr ⟨opts,stream,dumper,frames,code,status,hresult,h.after hfront⟩

theorem runs_runConfig (h : Runs (runConfig rt config) history result) : AccountedRun rt config history result := by
  have hidle {p : Prog (Exec ℕ)} (hp : Idle p fun _ => True) (hrun : Runs p history result) : AccountedRun rt config history result :=
    .inl (hp.runs hrun).1
  have hprint (text : Bytes) : Idle (fprintf .stdout text >>= fun _ => (pure (.ok 0) : Prog (Exec ℕ))) fun _ => True :=
    (idle_fprintf _ _).bind fun _ _ => spares_done trivial
  have hstop (message : Bytes) : Idle (Except.ok <$> stop message : Prog (Exec ℕ)) fun _ => True :=
    (idle_stop message).bind fun _ _ => spares_done trivial
  unfold runConfig at h
  split_ifs at h
  · exact hidle (hprint _) h
  · exact hidle (hprint _) h
  · refine hidle ((idle_nsCaptureListInterfaces .stdout).bind fun listed _ => ?_) h
    cases listed with
    | error e => exact hstop e
    | ok _ => exact spares_done trivial
  · obtain ⟨front,back,found,rfl,hexists,hrest⟩ := runs_bind.mp h
    refine AccountedRun.after ((idle_nsCaptureInterfaceExists _).runs hexists).1 ?_
    cases found with
    | true => exact runs_filterAndCapture hrest
    | false => exact .inl ((hstop _).runs hrest).1
  · exact runs_filterAndCapture h

/-- Whatever its calls answer, a run that receives packets delivers them: each frame of the
loop is dumped, where a dump is asked for, and written, in order and with its place as its
number, and no other frame is; the status and the closing statistics are those of the loop. -/
theorem packets_delivered (h : Runs (main rt args) history result) (hpackets : ∃ x ∈ history, packetCall x.call = true) :
    ∃ config opts stream dumper frames code status, nsConfigParse args errLen = .ok config ∧ result = .ok status ∧
      Delivers rt config opts stream dumper frames code history status := by
  obtain ⟨x,hx,hcall⟩ := hpackets
  have hnot : ¬∀ x ∈ history, packetCall x.call = false := fun hidle => by
    rw [hidle x hx] at hcall
    cases hcall
  unfold main at h
  cases hparse : nsConfigParse args errLen with
  | error e =>
    rw [hparse] at h
    have hidle : Idle (do
        fprintf .stderr (printError e)
        fprintf .stderr (ascii "Try '" ++ programName ++ ascii " --help' for usage." ++ [newline])
        return .ok 1 : Prog (Exec ℕ)) fun _ => True :=
      (idle_fprintf _ _).bind fun _ _ => (idle_fprintf _ _).bind fun _ _ => spares_done trivial
    exact absurd (hidle.runs h).1 hnot
  | ok config =>
    rw [hparse] at h
    rcases runs_runConfig h with hidle | ⟨opts,stream,dumper,frames,code,status,hresult,hdelivers⟩
    · exact absurd hidle hnot
    · exact ⟨config,opts,stream,dumper,frames,code,status,rfl,hresult,hdelivers⟩

theorem recording_delivers : (∃ x ∈ recordingHistory, packetCall x.call = true) ∧
    ∃ config opts stream dumper frames code status, nsConfigParse recordingRun errLen = .ok config ∧ (.ok 0 : Exec ℕ) = .ok status ∧
      Delivers exampleRuntime config opts stream dumper frames code recordingHistory status := by
  have hpackets : ∃ x ∈ recordingHistory, packetCall x.call = true := ⟨⟨.loop 1,([firstFrame,secondFrame],-2)⟩,by simp [recordingHistory],rfl⟩
  exact ⟨hpackets,packets_delivered recordingHistory_runs hpackets⟩

end Whole

end Netscope.Calls
