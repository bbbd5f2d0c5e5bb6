import Netscope.Model.Capture
import Netscope.Model.Config
import Netscope.Model.Filter
import Netscope.Model.StatsPrint

/-! # The program

`main` as a function of its command line and of the answers of the system it runs on.
-/
namespace Netscope
open ByteString Numerals PartialMemory

/-- What a run takes from outside: libpcap, the C library and the terminal. -/
structure System where
  pcap : Pcap
  clock : Clock
  lib : PrintLibrary
  stdoutIsTerminal : Bool
  outputFileIsTerminal : Bool
  outputFileOpens : Bool
  /-- `%.2f` of the seconds between the two readings of the monotonic clock. -/
  duration : Bytes

/-- How a run ends: its exit status, what it wrote (the log lines apart), and the filter
expression it handed to the capture layer, if it got so far. -/
structure Outcome where
  status : ℕ
  stdout : Bytes
  stderr : Bytes
  outputFile : Option Bytes
  captureFilter : Option Bytes
deriving DecidableEq

abbrev errLen : ℕ := 512

def programName : Bytes := ascii "netscope"

def printError (message : Bytes) : Bytes :=
  programName ++ ascii ": " ++ message ++ [newline] ++
    if ascii "ermission" <:+: message then
      ascii "hint: try running with elevated capture privileges (see README.md for platform-specific guidance)" ++ [newline]
    else []

/-- A run that stops with a message and nothing else. -/
def failed (message : Bytes) : Outcome := ⟨1,[],printError message,none,none⟩

/-- A run that succeeds with a text. -/
def printed (text : Bytes) : Outcome := ⟨0,text,[],none,none⟩

/-- The specification that `main` passes to the filter builder. -/
def filterSpec (config : Config) : FilterSpec where
  tcp := config.filterTcp
  udp := config.filterUdp
  icmp := config.filterIcmp
  port := config.filterPort
  host := some config.filterHost
  src := some config.filterSrc
  dst := some config.filterDst
  raw := if config.hasRawFilter then some config.rawFilter else none

section Main
variable (sys : System)

/-- The statistics and what has been written to the two streams. -/
structure LoopState where
  stats : Stats
  stdout : Bytes
  outputFile : Bytes

/-- Whether the packets are written to a file of their own. -/
def usesOutputFile (config : Config) : Bool := config.format = .json ∧ config.outputFile.bytes ≠ []

/-- Whether the dump goes to the standard output, which `pcap_dump_open` names `-`. -/
def dumpsToStdout (config : Config) : Bool := config.writeFile.bytes = ascii "-"

def outputOptions (config : Config) : OutputOptions where
  color := if config.noColor then false
    else if usesOutputFile config then sys.outputFileIsTerminal else sys.stdoutIsTerminal
  verbose := config.verboseOutput
  quiet := config.quiet
  hex := config.hexDump
  format := config.format

def handlePacket (config : Config) (s : LoopState) (pkt : Packet) : LoopState :=
  let text := nsOutputPacket sys.clock pkt (outputOptions sys config)
  { stats := nsStatsUpdate s.stats pkt
    stdout := if usesOutputFile config then s.stdout else s.stdout ++ text
    outputFile := if usesOutputFile config then s.outputFile ++ text else s.outputFile }

/-- The `i`-th call of `pcap_packet_callback`: the dump, then the packet. -/
def onFrame (config : Config) (linkType : LinkType) (s : LoopState) (x : PcapFrame × ℕ) : LoopState :=
  let dumped := if dumpsToStdout config then { s with stdout := s.stdout ++ sys.pcap.dumpRecord x.1 } else s
  handlePacket sys config dumped (pcapPacketCallback linkType x.2 x.1)

/-- The lines printed before a live capture. -/
def banner (config : Config) : Bytes :=
  if config.inputMode = .live ∧ config.format = .text ∧ ¬config.quiet then
    nsName ++ ascii " " ++ nsVersionString ++ [newline] ++ ascii "Interface: " ++ config.interface.bytes ++ [newline] ++
      ascii "Capture started. Press Ctrl+C to stop." ++ [newline,newline]
  else []

/-- `main` from the opened capture on. -/
def runCapture (config : Config) (linkType : LinkType) (bpfExpr stdout : Bytes) : Outcome :=
  let start : LoopState := ⟨nsStatsInit,stdout ++ banner config,[]⟩
  let s := sys.pcap.frames.zipIdx.foldl (onFrame sys config linkType) start
  let file := if usesOutputFile config then some s.outputFile else none
  match nsCaptureRun sys.pcap errLen with
  | .error e => ⟨1,s.stdout,printError e,file,some bpfExpr⟩
  | .ok () =>
    -- A dump to the standard output has been closed by now, and the stream with it.
    if (config.showStats ∨ config.inputMode = .live) ∧ ¬dumpsToStdout config then
      ⟨0,s.stdout ++ nsStatsPrint sys.lib s.stats sys.duration,[],file,some bpfExpr⟩
    else ⟨0,s.stdout,[],file,some bpfExpr⟩

/-- The dump and the output file, then the run. -/
def openOutputs (config : Config) (linkType : LinkType) (bpfExpr : Bytes) : Outcome :=
  let dump := if config.writeFile.bytes ≠ [] then nsCaptureOpenDump sys.pcap config.writeFile.bytes errLen else .ok ()
  match dump with
  | .error e => { failed e with captureFilter := some bpfExpr }
  | .ok () =>
    let stdout := if dumpsToStdout config then sys.pcap.dumpHeader else []
    if usesOutputFile config ∧ ¬sys.outputFileOpens then
      { failed (snprintf 512 (ascii "failed to open '" ++ config.outputFile.bytes ++ ascii "' for writing")) with
        stdout := stdout, captureFilter := some bpfExpr }
    else runCapture sys config linkType bpfExpr stdout

/-- The capture source with the filter, then the outputs. -/
def openCapture (config : Config) (bpfExpr : Bytes) : Outcome :=
  let opened := if config.inputMode = .live then nsCaptureOpenLive sys.pcap config.interface.bytes bpfExpr errLen
    else nsCaptureOpenOffline sys.pcap config.readFile.bytes bpfExpr errLen
  match opened with
  | .error e => { failed e with captureFilter := some bpfExpr }
  | .ok linkType => openOutputs sys config linkType bpfExpr

/-- `main` behind the command line. -/
def runConfig (config : Config) : Exec Outcome :=
  if config.showHelp then return printed (nsConfigPrintHelp programName)
  else if config.showVersion then return printed nsConfigPrintVersion
  else if config.listInterfaces then
    match nsCaptureListInterfaces sys.pcap with
    | .error e => return failed e
    | .ok text => return printed text
  else if config.inputMode = .live ∧ ¬nsCaptureInterfaceExists sys.pcap config.interface.bytes then
    return failed (snprintf 512 (ascii "interface '" ++ config.interface.bytes ++ ascii "' does not exist"))
  else do
    let (built,cells) ← nsFilterBuildBpf (filterSpec config) (fresh (configStrLen * 2))
    if !built then return failed (ascii "capture filter expression is too long")
    else do
      let bpfExpr ← loadString cells
      return openCapture sys config bpfExpr

def main (args : CommandLine) : Exec Outcome :=
  match nsConfigParse args errLen with
  | .error e =>
    let message := failed e
    return { message with stderr := message.stderr ++ ascii "Try '" ++ programName ++ ascii " --help' for usage." ++ [newline] }
  | .ok config => runConfig sys config

end Main

end Netscope
