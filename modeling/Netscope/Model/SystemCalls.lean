import Netscope.Library.Interaction
import Netscope.Model.Main
import Netscope.Model.SignalHandler

/-! # The program and its calls

`main.c`, `capture.c`, `log.c` and `ns_output_should_use_color` once more, with every call of
libpcap, of the C library and of the signal handler's setters as a request whose answer is
open. A write stands for the `fprintf` calls of one function on one stream, and a read of a
device for what a round of a loop reads of a list that libpcap owns.
-/
namespace Netscope.Calls
open ByteString Numerals PartialMemory Interaction

abbrev Code := ℕ
abbrev DumpHandle := ℕ
abbrev FileHandle := ℕ

/-- A dump with the path that it has been opened for; `-` stands for the standard output. -/
structure Dumper where
  handle : DumpHandle
  path : Bytes
deriving DecidableEq, Repr

inductive Stream where
  | stdout
  | stderr
  | file (f : FileHandle)
deriving DecidableEq, Repr

/-- A reading of the monotonic clock. -/
structure Instant where
  seconds : ℕ
  nanoseconds : ℕ
deriving DecidableEq, Repr

/-- What the program asks for. The names of libpcap stand without their `pcap`. -/
inductive SystemCall where
  | findalldevs
  | readDevice (devices : List Device) (index : ℕ)
  | freealldevs (devices : List Device)
  | create (interface : Bytes)
  | openOffline (path : Bytes)
  | setSnaplen (h : PcapHandle) (snaplen : ℕ)
  | setPromisc (h : PcapHandle) (promisc : ℕ)
  | setTimeout (h : PcapHandle) (timeout : ℕ)
  | activate (h : PcapHandle)
  | statustostr (status : ℤ)
  | geterr (h : PcapHandle)
  | datalink (h : PcapHandle)
  | datalinkValToName (dlt : ℕ)
  | compile (h : PcapHandle) (filter : Bytes)
  | setfilter (h : PcapHandle) (program : Code)
  | freecode (program : Code)
  | dumpOpen (h : PcapHandle) (path : Bytes)
  | dump (d : Dumper) (frame : PcapFrame)
  | dumpClose (d : Dumper)
  | loop (h : PcapHandle)
  | close (h : PcapHandle)
  | fopen (path : Bytes)
  | fclose (f : FileHandle)
  | isatty (stream : Stream)
  | write (stream : Stream) (text : Bytes)
  | log (line : Bytes)
  | installSignalHandlers
  | setCaptureHandle (h : Option PcapHandle)
  | clockGettime

/-- What a call gives back. A null pointer is `none`, or comes with the text of the error
buffer; `loop` answers with the frames it hands to the callback and with its result. -/
abbrev Answer : SystemCall → Type
  | .findalldevs => Except Bytes (List Device)
  | .create _ => Except Bytes PcapHandle
  | .openOffline _ => Except Bytes PcapHandle
  | .activate _ => ℤ
  | .statustostr _ => Bytes
  | .geterr _ => Bytes
  | .datalink _ => ℕ
  | .datalinkValToName _ => Option Bytes
  | .compile _ _ => Option Code
  | .setfilter _ _ => ℤ
  | .dumpOpen _ _ => Option DumpHandle
  | .loop _ => List PcapFrame × ℤ
  | .fopen _ => Option FileHandle
  | .isatty _ => Bool
  | .clockGettime => Instant
  | _ => Unit

abbrev Prog := Program Answer

def ask (c : SystemCall) : Prog (Answer c) := Program.request c

def fprintf (stream : Stream) (text : Bytes) : Prog Unit := ask (.write stream text)

/-! ## `log.c` -/

def levelName : LogLevel → Bytes
  | .error => ascii "ERROR"
  | .warn => ascii "WARN"
  | .info => ascii "INFO"
  | .debug => ascii "DEBUG"

/-- The first level is the one that `ns_log_set_level` has set; levels compare by their place in the enumeration. -/
def nsLog (logLevel level : LogLevel) (message : Bytes) : Prog Unit :=
  if level.ctorIdx > logLevel.ctorIdx then pure ()
  else ask (.log (ascii "[" ++ levelName level ++ ascii "] " ++ message ++ [newline]))

/-! ## `capture.c` -/

/-- A capture that has been opened and not been closed, so that its handle is not null. -/
structure Capture where
  handle : PcapHandle
  linkType : LinkType
  dumper : Option Dumper
  nextPacketNumber : UInt64

abbrev captureDefaultSnaplen : ℕ := 262144
abbrev captureTimeoutMs : ℕ := 1000

/-- The loop over the list, from a device on. -/
def printDevices (out : Stream) (devices : List Device) : List (ℕ × Device) → Prog Unit
  | [] => pure ()
  | (index,dev) :: rest => do
    ask (.readDevice devices index)
    fprintf out (printDevice index dev)
    printDevices out devices rest

def nsCaptureListInterfaces (out : Stream) : Prog (Except Bytes Unit) := do
  match ← ask .findalldevs with
  | .error e => return .error e
  | .ok [] =>
    fprintf out (ascii "No capture interfaces found." ++ [newline] ++
      ascii "hint: capturing usually requires elevated privileges; see README.md" ++ [newline])
    return .ok ()
  | .ok (dev :: rest) =>
    fprintf out (ascii "Available interfaces:" ++ [newline,newline])
    printDevices out (dev :: rest) ((dev :: rest).mapIdx fun index dev => (index,dev))
    ask (.freealldevs (dev :: rest))
    return .ok ()

/-- The search in the list, from a device on. -/
def findDevice (name : Bytes) (devices : List Device) : List (ℕ × Device) → Prog Bool
  | [] => return false
  | (index,dev) :: rest => do
    ask (.readDevice devices index)
    if dev.name = name then return true
    else findDevice name devices rest

def nsCaptureInterfaceExists (name : Bytes) : Prog Bool := do
  match ← ask .findalldevs with
  | .error _ => return false
  | .ok devices =>
    let found ← findDevice name devices (devices.mapIdx fun index dev => (index,dev))
    ask (.freealldevs devices)
    return found

def applyFilter (handle : PcapHandle) (bpfFilter : Bytes) (errLen : ℕ) : Prog (Except Bytes Unit) := do
  if bpfFilter = [] then return .ok ()
  else
    match ← ask (.compile handle bpfFilter) with
    | none =>
      let e ← ask (.geterr handle)
      return .error (snprintf errLen (ascii "invalid capture filter '" ++ bpfFilter ++ ascii "': " ++ e))
    | some program =>
      let result ← ask (.setfilter handle program)
      ask (.freecode program)
      if result ≠ 0 then
        let e ← ask (.geterr handle)
        return .error (snprintf errLen (ascii "failed to apply capture filter: " ++ e))
      else return .ok ()

/-- The C library prints a null string as `(null)`. -/
def resolveLinkType (logLevel : LogLevel) (handle : PcapHandle) (errLen : ℕ) : Prog (Except Bytes LinkType) := do
  let dlt ← ask (.datalink handle)
  let name ← ask (.datalinkValToName dlt)
  nsLog logLevel .debug (ascii "pcap datalink: " ++ name.getD (ascii "(null)"))
  if dlt ≠ dltEn10mb then
    let name ← ask (.datalinkValToName dlt)
    return .error (snprintf errLen (ascii "unsupported datalink type: " ++ name.getD (ascii "unknown")))
  else return .ok .ethernet

/-- The common end of the two functions that open a capture. -/
def finishOpen (logLevel : LogLevel) (handle : PcapHandle) (bpfFilter : Bytes) (errLen : ℕ) :
    Prog (Except Bytes Capture) := do
  match ← resolveLinkType logLevel handle errLen with
  | .error e =>
    ask (.close handle)
    return .error e
  | .ok linkType =>
    match ← applyFilter handle bpfFilter errLen with
    | .error e =>
      ask (.close handle)
      return .error e
    | .ok () => return .ok ⟨handle,linkType,none,0⟩

/-- The log line of an activation that succeeds with a warning. -/
def warnActivate (logLevel : LogLevel) (interface : Bytes) (activateResult : ℤ) : Prog Unit :=
  if activateResult > 0 then do
    let status ← ask (.statustostr activateResult)
    nsLog logLevel .warn (ascii "pcap_activate warning on '" ++ interface ++ ascii "': " ++ status)
  else pure ()

def nsCaptureOpenLive (logLevel : LogLevel) (interface bpfFilter : Bytes) (errLen : ℕ) :
    Prog (Except Bytes Capture) := do
  match ← ask (.create interface) with
  | .error e => return .error (snprintf errLen (ascii "failed to open interface '" ++ interface ++ ascii "': " ++ e))
  | .ok handle =>
    ask (.setSnaplen handle captureDefaultSnaplen)
    ask (.setPromisc handle 1)
    ask (.setTimeout handle captureTimeoutMs)
    let activateResult ← ask (.activate handle)
    if activateResult < 0 then
      let e ← ask (.geterr handle)
      ask (.close handle)
      return .error (snprintf errLen (ascii "failed to activate capture on '" ++ interface ++ ascii "': " ++ e))
    else
      warnActivate logLevel interface activateResult
      finishOpen logLevel handle bpfFilter errLen

def nsCaptureOpenOffline (logLevel : LogLevel) (path bpfFilter : Bytes) (errLen : ℕ) : Prog (Except Bytes Capture) := do
  match ← ask (.openOffline path) with
  | .error e => return .error (snprintf errLen (ascii "failed to open capture file '" ++ path ++ ascii "': " ++ e))
  | .ok handle => finishOpen logLevel handle bpfFilter errLen

def nsCaptureOpenDump (cap : Capture) (path : Bytes) (errLen : ℕ) : Prog (Except Bytes Capture) := do
  match ← ask (.dumpOpen cap.handle path) with
  | none =>
    let e ← ask (.geterr cap.handle)
    return .error (snprintf errLen (ascii "failed to open '" ++ path ++ ascii "' for writing: " ++ e))
  | some dumper => return .ok { cap with dumper := some ⟨dumper,path⟩ }

def dumpPacket (cap : Capture) (frame : PcapFrame) : Prog Unit :=
  match cap.dumper with
  | some dumper => ask (.dump dumper frame)
  | none => pure ()

/-- The callback's context is what `on_packet` makes of it. -/
def pcapPacketCallback {Ctx : Type} (onPacket : Ctx → Packet → Prog Ctx) (cap : Capture) (ctx : Ctx) (frame : PcapFrame) :
    Prog (Capture × Ctx) := do
  dumpPacket cap frame
  let cap := { cap with nextPacketNumber := cap.nextPacketNumber + 1 }
  let ctx ← onPacket ctx (nsPacketParse frame.data frame.len frame.ts cap.nextPacketNumber cap.linkType)
  return (cap,ctx)

/-- The callback on one frame after another. -/
def pcapLoop {Ctx : Type} (onPacket : Ctx → Packet → Prog Ctx) (cap : Capture) (ctx : Ctx) :
    List PcapFrame → Prog (Capture × Ctx)
  | [] => return (cap,ctx)
  | frame :: rest => do
    let (cap,ctx) ← pcapPacketCallback onPacket cap ctx frame
    pcapLoop onPacket cap ctx rest

def nsCaptureRun {Ctx : Type} (onPacket : Ctx → Packet → Prog Ctx) (cap : Capture) (ctx : Ctx) (errLen : ℕ) :
    Prog (Except Bytes Unit × Capture × Ctx) := do
  ask (.setCaptureHandle (some cap.handle))
  let (frames,result) ← ask (.loop cap.handle)
  let (cap,ctx) ← pcapLoop onPacket cap ctx frames
  ask (.setCaptureHandle none)
  if result = -1 then
    let e ← ask (.geterr cap.handle)
    return (.error (snprintf errLen (ascii "capture loop failed: " ++ e)),cap,ctx)
  else return (.ok (),cap,ctx)

def closeDump (cap : Capture) : Prog Unit :=
  match cap.dumper with
  | some dumper => ask (.dumpClose dumper)
  | none => pure ()

def nsCaptureClose (cap : Capture) : Prog Unit := do
  closeDump cap
  ask (.close cap.handle)

/-! ## `main.c` -/

/-- What the C library and the clock contribute to the texts. -/
structure Runtime where
  clock : Clock
  lib : PrintLibrary
  /-- `%.2f` of the seconds between two readings of the monotonic clock. -/
  duration : Instant → Instant → Bytes

section Main
variable (rt : Runtime)

def nsOutputShouldUseColor (noColorFlag : Bool) (stream : Stream) : Prog Bool := do
  if noColorFlag then return false
  else ask (.isatty stream)

structure MainCtx where
  stats : Stats
  outputOpts : OutputOptions
  out : Stream

def handlePacket (ctx : MainCtx) (pkt : Packet) : Prog MainCtx := do
  let ctx := { ctx with stats := nsStatsUpdate ctx.stats pkt }
  fprintf ctx.out (nsOutputPacket rt.clock pkt ctx.outputOpts)
  return ctx

/-- The message, then status 1. -/
def stop (message : Bytes) : Prog ℕ := do
  fprintf .stderr (printError message)
  return 1

def printBanner (config : Config) : Prog Unit :=
  if config.inputMode = .live ∧ config.format = .text ∧ ¬config.quiet then fprintf .stdout (banner config) else pure ()

def closeOutput (outputStream : Stream) : Prog Unit :=
  match outputStream with
  | .file f => ask (.fclose f)
  | _ => pure ()

def printStats (config : Config) (stats : Stats) (duration : Bytes) : Prog Unit :=
  if config.showStats ∨ config.inputMode = .live then fprintf .stdout (nsStatsPrint rt.lib stats duration) else pure ()

/-- From the two open outputs to the end. -/
def capture (config : Config) (cap : Capture) (outputStream : Stream) : Prog ℕ := do
  let color ← nsOutputShouldUseColor config.noColor outputStream
  let outputOpts : OutputOptions := ⟨color,config.verboseOutput,config.quiet,config.hexDump,config.format⟩
  printBanner config
  ask .installSignalHandlers
  let startTime ← ask .clockGettime
  let (ran,cap,ctx) ← nsCaptureRun (handlePacket rt) cap ⟨nsStatsInit,outputOpts,outputStream⟩ errLen
  let endTime ← ask .clockGettime
  nsCaptureClose cap
  closeOutput outputStream
  match ran with
  | .error e => stop e
  | .ok () =>
    printStats rt config ctx.stats (rt.duration startTime endTime)
    return 0

/-- The output file. -/
def openOutput (config : Config) (cap : Capture) : Prog ℕ := do
  if config.format = .json ∧ config.outputFile.bytes ≠ [] then
    match ← ask (.fopen config.outputFile.bytes) with
    | none =>
      fprintf .stderr (printError (snprintf 512 (ascii "failed to open '" ++ config.outputFile.bytes ++ ascii "' for writing")))
      nsCaptureClose cap
      return 1
    | some f => capture rt config cap (.file f)
  else capture rt config cap .stdout

/-- The capture source and the dump. -/
def openCapture (config : Config) (bpfExpr : Bytes) : Prog ℕ := do
  let opened ← (if config.inputMode = .live then nsCaptureOpenLive config.logLevel config.interface.bytes bpfExpr errLen
    else nsCaptureOpenOffline config.logLevel config.readFile.bytes bpfExpr errLen)
  match opened with
  | .error e => stop e
  | .ok cap =>
    if config.writeFile.bytes ≠ [] then
      match ← nsCaptureOpenDump cap config.writeFile.bytes errLen with
      | .error e =>
        fprintf .stderr (printError e)
        nsCaptureClose cap
        return 1
      | .ok cap => openOutput rt config cap
    else openOutput rt config cap

/-- The expression in the buffer of `main`, if it fits. -/
@[irreducible] def builtFilter (config : Config) : Exec (Option Bytes) := do
  let (built,cells) ← nsFilterBuildBpf (filterSpec config) (fresh (configStrLen * 2))
  if !built then return none
  else return some (← loadString cells)

/-- `main` behind the tests that need no filter. -/
def filterAndCapture (config : Config) : Prog (Exec ℕ) :=
  match builtFilter config with
  | .error fault => return .error fault
  | .ok none => .ok <$> stop (ascii "capture filter expression is too long")
  | .ok (some bpfExpr) => .ok <$> openCapture rt config bpfExpr

def runConfig (config : Config) : Prog (Exec ℕ) := do
  if config.showHelp then
    fprintf .stdout (nsConfigPrintHelp programName)
    return .ok 0
  else if config.showVersion then
    fprintf .stdout nsConfigPrintVersion
    return .ok 0
  else if config.listInterfaces then
    match ← nsCaptureListInterfaces .stdout with
    | .error e => .ok <$> stop e
    | .ok () => return .ok 0
  else if config.inputMode = .live then
    if ← nsCaptureInterfaceExists config.interface.bytes then filterAndCapture rt config
    else .ok <$> stop (snprintf 512 (ascii "interface '" ++ config.interface.bytes ++ ascii "' does not exist"))
  else filterAndCapture rt config

def main (args : CommandLine) : Prog (Exec ℕ) := do
  match nsConfigParse args errLen with
  | .error e =>
    fprintf .stderr (printError e)
    fprintf .stderr (ascii "Try '" ++ programName ++ ascii " --help' for usage." ++ [newline])
    return .ok 1
  | .ok config => runConfig rt config

end Main

end Netscope.Calls
