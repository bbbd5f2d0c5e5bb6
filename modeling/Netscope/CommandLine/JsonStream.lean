import Netscope.CommandLine.StoredArguments
import Netscope.Text.JsonOutput
import Netscope.Text.TerminalOutput

/-! # JSON lines on the standard output

With `--format json` and no output file the standard output is to carry one JSON
object a line, one for each packet. The packets keep to that; the statistics at the
end of a run and a dump to `-` share the stream with them.
-/
namespace Netscope.JsonStream
open ByteString Numerals ByteClasses PartialMemory FilterExpression StoredArguments JsonOutput TerminalOutput

/-- The line holds one JSON object, which tells what the packet is. -/
def IsLineOf (line : Bytes) (pkt : Packet) : Prop :=
  ∃ body v, line = body ++ [newline] ∧ newline ∉ body ∧ Json.parse body = some v ∧ Shows pkt v

/-- The text consists of one line for each packet, in order. -/
def JsonLines (text : Bytes) (pkts : List Packet) : Prop :=
  ∃ lines : List Bytes, text = lines.flatten ∧ List.Forall₂ IsLineOf lines pkts

/-! ## Lines -/

theorem isLineOf_printJsonLine (clock : Clock) (pkt : Packet) : IsLineOf (printJsonLine clock pkt) pkt := by
  refine ⟨_,_,printJsonLine_text clock pkt,?_,(packetObject clock pkt).spells.parse,packetObject_shows clock pkt⟩
  intro hmem
  exact absurd ((packetObject clock pkt).printable newline hmem) (by decide)

theorem jsonLines_map (clock : Clock) (pkts : List Packet) : JsonLines (pkts.map (printJsonLine clock)).flatten pkts := by
  refine ⟨_,rfl,List.forall₂_map_left_iff.mpr (List.forall₂_same.mpr ?_)⟩
  intro pkt _
  exact isLineOf_printJsonLine clock pkt

theorem IsLineOf.count_newline {line : Bytes} {pkt : Packet} (h : IsLineOf line pkt) : line.count newline = 1 := by
  obtain ⟨body,v,rfl,hbody,-,-⟩ := h
  rw [List.count_append, List.count_eq_zero_of_not_mem hbody, List.count_singleton_self]

/-- There are as many lines as packets. -/
theorem JsonLines.count_newline {text : Bytes} {pkts : List Packet} (h : JsonLines text pkts) :
    text.count newline = pkts.length := by
  obtain ⟨lines,rfl,hlines⟩ := h
  induction hlines with
  | nil => rfl
  | cons hline _ ih => rw [List.flatten_cons, List.count_append, hline.count_newline, ih, List.length_cons, Nat.add_comm]

/-- A text of lines for packets followed by a text with a newline is not one of lines for them. -/
theorem not_jsonLines_append {text rest : Bytes} {pkts : List Packet} (h : JsonLines text pkts) (hrest : newline ∈ rest) :
    ¬JsonLines (text ++ rest) pkts := by
  intro happend
  have hcount := happend.count_newline
  have hpos := List.count_pos_iff.mpr hrest
  rw [List.count_append, h.count_newline] at hcount
  omega

theorem newline_mem_nsStatsPrint (lib : PrintLibrary) (stats : Stats) (duration : Bytes) :
    newline ∈ nsStatsPrint lib stats duration := by
  have htotals : newline ∈ printTotals lib stats duration := List.mem_append_right _ (List.mem_singleton_self _)
  exact List.mem_append_left _ (List.mem_append_left _ htotals)

/-! ## The dump -/

/-- The magic numbers of the capture file format, in either byte order. -/
def magicNumbers : List Bytes :=
  [[0xa1,0xb2,0xc3,0xd4],[0xd4,0xc3,0xb2,0xa1],[0xa1,0xb2,0x3c,0x4d],[0x4d,0x3c,0xb2,0xa1]]

/-- A dump starts with a magic number. -/
def WritesMagic (pcap : Pcap) : Prop := ∃ magic ∈ magicNumbers, magic <+: pcap.dumpHeader

/-- No JSON text starts as a dump does. -/
theorem parse_dump {b : UInt8} (h : b ∈ [0xa1,0xd4,0x4d]) (t : Bytes) : Json.parse (b :: t) = none := by
  simp only [List.mem_cons, List.not_mem_nil, or_false] at h
  rcases h with rfl | rfl | rfl <;> rfl

theorem WritesMagic.head {pcap : Pcap} (h : WritesMagic pcap) : ∃ b t, pcap.dumpHeader = b :: t ∧ b ∈ [0xa1,0xd4,0x4d] := by
  obtain ⟨magic,hmagic,rest,hheader⟩ := h
  have hfirst : ∀ m ∈ magicNumbers, ∃ b t, m = b :: t ∧ b ∈ [0xa1,0xd4,0x4d] := by
    intro m hm
    simp only [magicNumbers, List.mem_cons, List.not_mem_nil, or_false] at hm
    rcases hm with rfl | rfl | rfl | rfl <;> exact ⟨_,_,rfl,by decide⟩
  obtain ⟨b,t,rfl,hb⟩ := hfirst magic hmagic
  exact ⟨b,t ++ rest,hheader.symm,hb⟩

theorem not_jsonLines_dump {pcap : Pcap} (h : WritesMagic pcap) (rest : Bytes) (pkts : List Packet) :
    ¬JsonLines (pcap.dumpHeader ++ rest) pkts := by
  obtain ⟨b,t,hheader,hb⟩ := h.head
  rintro ⟨lines,htext,hlines⟩
  rw [hheader, List.cons_append] at htext
  cases hlines with
  | nil => cases htext
  | cons hline _ =>
    obtain ⟨body,v,rfl,_,hparse,_⟩ := hline
    cases body with
    | nil => cases hparse
    | cons b' body =>
      rw [List.flatten_cons, List.cons_append, List.cons_append] at htext
      obtain ⟨rfl,_⟩ := List.cons.inj htext
      rw [parse_dump hb] at hparse
      cases hparse

/-! ## The run -/

theorem resolveLinkType_ok {pcap : Pcap} {n : ℕ} {linkType : LinkType} (h : resolveLinkType pcap n = .ok linkType) :
    linkType = .ethernet := by
  unfold resolveLinkType at h
  split at h
  · cases h
  · exact (Except.ok.inj h).symm

theorem usesOutputFile_of_empty {config : Config} (h : config.outputFile.bytes = []) : usesOutputFile config = false := by
  simp [usesOutputFile, h]

/-- A capture is opened on Ethernet frames only. -/
theorem opened_ethernet (sys : System) {config : Config} {bpfExpr : Bytes} {linkType : LinkType}
    (h : (if config.inputMode = .live then nsCaptureOpenLive sys.pcap config.interface.bytes bpfExpr errLen
      else nsCaptureOpenOffline sys.pcap config.readFile.bytes bpfExpr errLen) = .ok linkType) : linkType = .ethernet := by
  have hresolved : ∀ {r : Except Bytes LinkType}, r = (do
      let linkType ← resolveLinkType sys.pcap errLen
      applyFilter sys.pcap bpfExpr errLen
      return linkType) → r = .ok linkType → linkType = .ethernet := by
    rintro r rfl hr
    obtain ⟨resolved,hresolve,hrest⟩ := bind_eq_ok.mp hr
    obtain ⟨_,_,hreturn⟩ := bind_eq_ok.mp hrest
    obtain rfl := Except.ok.inj hreturn
    exact resolveLinkType_ok hresolve
  split at h
  · unfold nsCaptureOpenLive at h
    split at h
    · cases h
    · split at h
      · cases h
      · exact hresolved rfl h
  · unfold nsCaptureOpenOffline at h
    split at h
    · cases h
    · exact hresolved rfl h

section Run
variable (sys : System) {config : Config}

/-- What one frame adds to the standard output. -/
def frameText (config : Config) (x : PcapFrame × ℕ) : Bytes :=
  (if dumpsToStdout config then sys.pcap.dumpRecord x.1 else []) ++
    printJsonLine sys.clock (pcapPacketCallback .ethernet x.2 x.1)

/-- What a run leaves on the standard output behind the packets. -/
def closingText (config : Config) (stats : Stats) : Bytes :=
  if (config.showStats ∨ config.inputMode = .live) ∧ ¬dumpsToStdout config then nsStatsPrint sys.lib stats sys.duration else []

/-- What a dump to the standard output starts with. -/
def openingText (config : Config) : Bytes := if dumpsToStdout config then sys.pcap.dumpHeader else []

variable (hformat : config.format = .json) (hfile : config.outputFile.bytes = [])
include hformat hfile

theorem onFrame_stdout (s : LoopState) (x : PcapFrame × ℕ) :
    (onFrame sys config .ethernet s x).stdout = s.stdout ++ frameText sys config x := by
  have huses := usesOutputFile_of_empty hfile
  have hoptions : (outputOptions sys config).format = .json := hformat
  unfold onFrame handlePacket frameText nsOutputPacket
  rw [huses, if_pos hoptions]
  cases dumpsToStdout config with
  | false => rfl
  | true => exact List.append_assoc _ _ _

theorem foldl_onFrame_stdout (s : LoopState) (xs : List (PcapFrame × ℕ)) :
    (xs.foldl (onFrame sys config .ethernet) s).stdout = s.stdout ++ xs.flatMap (frameText sys config) := by
  induction xs generalizing s with
  | nil => simp
  | cons x xs ih => rw [List.foldl_cons, ih, onFrame_stdout sys hformat hfile, List.flatMap_cons, List.append_assoc]

theorem runCapture_stdout {bpfExpr stdout : Bytes} (h : (runCapture sys config .ethernet bpfExpr stdout).status = 0) :
    ∃ stats, (runCapture sys config .ethernet bpfExpr stdout).stdout =
      stdout ++ sys.pcap.frames.zipIdx.flatMap (frameText sys config) ++ closingText sys config stats := by
  have hbanner : banner config = [] := if_neg (by simp [hformat])
  have hloop := foldl_onFrame_stdout sys hformat hfile ⟨nsStatsInit,stdout ++ banner config,[]⟩ sys.pcap.frames.zipIdx
  rw [hbanner, List.append_nil] at hloop
  unfold runCapture at h ⊢
  rw [hbanner, List.append_nil] at h ⊢
  cases hrun : nsCaptureRun sys.pcap errLen with
  | error e =>
    rw [hrun] at h
    cases h
  | ok u =>
    refine ⟨(sys.pcap.frames.zipIdx.foldl (onFrame sys config .ethernet) ⟨nsStatsInit,stdout,[]⟩).stats,?_⟩
    dsimp only at hloop ⊢
    rw [← hloop, closingText]
    split
    · rfl
    · exact (List.append_nil _).symm

/-- A run that opens its capture and ends cleanly. -/
theorem openCapture_stdout {bpfExpr : Bytes} (h : (openCapture sys config bpfExpr).status = 0) :
    ∃ stats, (openCapture sys config bpfExpr).stdout =
      openingText sys config ++ sys.pcap.frames.zipIdx.flatMap (frameText sys config) ++ closingText sys config stats := by
  have huses : ¬(usesOutputFile config = true ∧ ¬sys.outputFileOpens = true) := by
    rw [usesOutputFile_of_empty hfile]
    exact fun h => Bool.false_ne_true h.1
  unfold openCapture at h ⊢
  cases hopened : (if config.inputMode = .live then nsCaptureOpenLive sys.pcap config.interface.bytes bpfExpr errLen
    else nsCaptureOpenOffline sys.pcap config.readFile.bytes bpfExpr errLen) with
  | error e =>
    rw [hopened] at h
    cases h
  | ok linkType =>
    rw [hopened] at h
    obtain rfl := opened_ethernet sys hopened
    dsimp only at h ⊢
    unfold openOutputs at h ⊢
    generalize (if config.writeFile.bytes ≠ [] then nsCaptureOpenDump sys.pcap config.writeFile.bytes errLen
      else Except.ok ()) = dump at h ⊢
    cases dump with
    | error e => cases h
    | ok u =>
      dsimp only at h ⊢
      rw [if_neg huses] at h ⊢
      exact runCapture_stdout sys hformat hfile h

end Run

/-! ## The standard output of a run -/

/-- A capture run that does not reach its capture fails. -/
theorem runConfig_unreached {sys : System} {config : Config} (hhelp : config.showHelp = false)
    (hversion : config.showVersion = false) (hlist : config.listInterfaces = false) (h : ¬ReachesCapture sys config) :
    ∃ message, runConfig sys config = .ok (failed message) := by
  have hmissing : config.inputMode = .live ∧ ¬nsCaptureInterfaceExists sys.pcap config.interface.bytes = true := by
    by_contra hno
    refine h ⟨hhelp,hversion,hlist,?_⟩
    intro hlive
    by_contra hnot
    exact hno ⟨hlive,hnot⟩
  rw [runConfig, hhelp, hversion, hlist, if_neg Bool.false_ne_true, if_neg Bool.false_ne_true, if_neg Bool.false_ne_true,
    if_pos hmissing]
  exact ⟨_,rfl⟩

/-- A run with JSON on the standard output writes an opening, the frames and a closing. -/
theorem main_stdout {sys : System} {args : CommandLine} {config : Config} (hparse : nsConfigParse args errLen = .ok config)
    (hhelp : config.showHelp = false) (hversion : config.showVersion = false) (hlist : config.listInterfaces = false)
    (hformat : config.format = .json) (hfile : config.outputFile.bytes = []) :
    ∃ outcome, main sys args = .ok outcome ∧ (outcome.status = 0 → ∃ stats, outcome.stdout =
      openingText sys config ++ sys.pcap.frames.zipIdx.flatMap (frameText sys config) ++ closingText sys config stats) := by
  rw [main_accepted hparse]
  by_cases hreach : ReachesCapture sys config
  · refine ⟨_,runConfig_capture hreach,?_⟩
    split
    · exact openCapture_stdout sys hformat hfile
    · intro hstatus
      cases hstatus
  · obtain ⟨message,hfailed⟩ := runConfig_unreached hhelp hversion hlist hreach
    refine ⟨_,hfailed,?_⟩
    intro hstatus
    cases hstatus

theorem flatMap_frameText {sys : System} {config : Config} (h : dumpsToStdout config = false) :
    sys.pcap.frames.zipIdx.flatMap (frameText sys config) =
      ((capturedPackets sys.pcap .ethernet).map (printJsonLine sys.clock)).flatten := by
  have htext : ∀ x, frameText sys config x = printJsonLine sys.clock (pcapPacketCallback .ethernet x.2 x.1) := by
    intro x
    rw [frameText, h]
    rfl
  rw [capturedPackets, List.mapIdx_eq_zipIdx_map, List.map_map, ← List.flatMap_def]
  exact List.flatMap_congr fun x _ => htext x

/-- A run with JSON on the standard output that ends cleanly writes one line for each packet
and nothing else exactly when it is not live, prints no statistics and dumps elsewhere. -/
theorem stdout_jsonLines_iff (sys : System) (args : CommandLine) (config : Config)
    (hparse : nsConfigParse args errLen = .ok config) (hhelp : config.showHelp = false)
    (hversion : config.showVersion = false) (hlist : config.listInterfaces = false) (hformat : config.format = .json)
    (hfile : config.outputFile.bytes = []) (hmagic : WritesMagic sys.pcap) :
    ∃ outcome, main sys args = .ok outcome ∧ (outcome.status = 0 →
      (JsonLines outcome.stdout (capturedPackets sys.pcap .ethernet) ↔
        config.inputMode ≠ .live ∧ config.showStats = false ∧ dumpsToStdout config = false)) := by
  obtain ⟨outcome,hmain,hstdout⟩ := @main_stdout sys args config hparse hhelp hversion hlist hformat hfile
  refine ⟨outcome,hmain,?_⟩
  intro hstatus
  obtain ⟨stats,hstdout⟩ := hstdout hstatus
  rw [hstdout]
  cases hdump : dumpsToStdout config with
  | true =>
    have hopening : openingText sys config = sys.pcap.dumpHeader := if_pos hdump
    rw [hopening, List.append_assoc]
    exact iff_of_false (not_jsonLines_dump hmagic _ _) (fun h => Bool.false_ne_true h.2.2.symm)
  | false =>
    have hopening : openingText sys config = [] := if_neg (by simp [hdump])
    have hlines := jsonLines_map sys.clock (capturedPackets sys.pcap .ethernet)
    rw [hopening, List.nil_append, flatMap_frameText hdump]
    by_cases hstats : config.showStats = true ∨ config.inputMode = .live
    · rw [closingText, if_pos ⟨hstats,by simp [hdump]⟩]
      refine iff_of_false (not_jsonLines_append hlines (newline_mem_nsStatsPrint _ _ _)) ?_
      rintro ⟨hlive,hshow,_⟩
      rcases hstats with h | h
      · rw [hshow] at h
        cases h
      · exact hlive h
    · rw [closingText, if_neg fun h => hstats h.1, List.append_nil]
      refine iff_of_true hlines ⟨fun h => hstats (.inr h),?_,rfl⟩
      exact Bool.eq_false_iff.mpr fun h => hstats (.inl h)

/-! ## Two runs -/

/-- A network with one query on it, which a live capture and a capture file both deliver. -/
def oneQuery : System where
  pcap := {
    findalldevs := .ok [⟨ascii "en0",none,[]⟩], create := none, openOffline := none, activate := none, datalink := dltEn10mb
    datalinkName := some (ascii "EN10MB"), compile := none, setfilter := none, dumpOpen := none
    dumpHeader := [0xd4,0xc3,0xb2,0xa1,2,0,4,0,0,0,0,0,0,0,0,0,0,0,4,0,1,0,0,0]
    dumpRecord := fun frame => frame.data
    frames := [⟨(queryFor #v[104,101,108,108,111]).data,65,⟨0,0⟩⟩], loop := none }
  clock := noon
  lib := ⟨fun _ _ => ascii "0.00",fun _ _ => ascii "100.00",fun _ flows => flows⟩
  stdoutIsTerminal := false
  outputFileIsTerminal := false
  outputFileOpens := false
  duration := ascii "1.00"

theorem oneQuery_writesMagic : WritesMagic oneQuery.pcap := ⟨[0xd4,0xc3,0xb2,0xa1],by decide,_,rfl⟩

theorem status_of_main {sys : System} {args : CommandLine} {outcome : Outcome} {n : ℕ} (h : main sys args = .ok outcome)
    (hstatus : (main sys args).toOption.map Outcome.status = some n) : outcome.status = n := by
  rw [h] at hstatus
  exact Option.some.inj hstatus

def jsonFormat : Token := .format ⟨ascii "json",by decide⟩

def capturePath : CString := ⟨ascii "capture.pcap",by decide⟩

/-- `netscope -r capture.pcap --format json` -/
def fileRun : CommandLine := ⟨[.read capturePath,jsonFormat],none⟩

def fileConfig : Config :=
  { initialState.out with inputMode := .file, readFile := capturePath, format := .json }

theorem fileRun_accepted : nsConfigParse fileRun errLen = .ok fileConfig := by decide +kernel

theorem fileRun_status : (main oneQuery fileRun).toOption.map Outcome.status = some 0 := by decide +kernel

theorem stdout_jsonLines_iff_file :
    nsConfigParse fileRun errLen = .ok fileConfig ∧ fileConfig.format = .json ∧ WritesMagic oneQuery.pcap ∧
      ∃ outcome, main oneQuery fileRun = .ok outcome ∧ outcome.status = 0 ∧
        JsonLines outcome.stdout (capturedPackets oneQuery.pcap .ethernet) := by
  obtain ⟨outcome,hmain,hiff⟩ := stdout_jsonLines_iff oneQuery fileRun fileConfig fileRun_accepted rfl rfl rfl rfl rfl
    oneQuery_writesMagic
  have hstatus := status_of_main hmain fileRun_status
  exact ⟨fileRun_accepted,rfl,oneQuery_writesMagic,outcome,hmain,hstatus,(hiff hstatus).mpr ⟨by decide,rfl,by decide⟩⟩

def liveInterface : CString := ⟨ascii "en0",by decide⟩

/-- `netscope -i en0 --format json` -/
def liveRun : CommandLine := ⟨[.interface liveInterface,jsonFormat],none⟩

def liveConfig : Config :=
  { initialState.out with inputMode := .live, interface := liveInterface, format := .json }

theorem liveRun_accepted : nsConfigParse liveRun errLen = .ok liveConfig := by decide +kernel

theorem liveRun_status : (main oneQuery liveRun).toOption.map Outcome.status = some 0 := by decide +kernel

/-- The statistics of a live capture end up among the JSON lines. -/
theorem liveRun_not_jsonLines :
    nsConfigParse liveRun errLen = .ok liveConfig ∧ liveConfig.format = .json ∧ liveConfig.outputFile = .empty ∧
      liveConfig.quiet = false ∧ ∃ outcome, main oneQuery liveRun = .ok outcome ∧ outcome.status = 0 ∧
        ¬JsonLines outcome.stdout (capturedPackets oneQuery.pcap .ethernet) := by
  obtain ⟨outcome,hmain,hstdout⟩ := @main_stdout oneQuery liveRun liveConfig liveRun_accepted rfl rfl rfl rfl rfl
  have hstatus := status_of_main hmain liveRun_status
  refine ⟨liveRun_accepted,rfl,rfl,rfl,outcome,hmain,hstatus,?_⟩
  obtain ⟨stats,htext⟩ := hstdout hstatus
  rw [htext, flatMap_frameText (by decide)]
  exact not_jsonLines_append (jsonLines_map _ _) (newline_mem_nsStatsPrint _ _ _)

end Netscope.JsonStream
