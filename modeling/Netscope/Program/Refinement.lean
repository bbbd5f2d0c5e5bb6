import Netscope.CommandLine.StoredArguments
import Netscope.Model.SystemCalls

/-! # The run on a system

The functional model of `main` describes a run by the answers of a system, each given once.
Here such a system answers the calls one after another and keeps the streams and the error
text of libpcap. Executed on it, the program of calls ends as the functional model says.
-/
namespace Netscope.Calls
open ByteString Numerals PartialMemory Interaction StoredArguments FilterExpression

/-- The standard streams, the lines of the log among what is on the standard error, the file
behind `--output`, and what `pcap_geterr` would give. -/
structure Surroundings where
  stdout : Bytes
  stdoutOpen : Bool
  stderr : Bytes
  logged : Bytes
  outputFile : Option Bytes
  lastError : Bytes
deriving DecidableEq

def Surroundings.start : Surroundings := ⟨[],true,[],[],none,[]⟩

/-- On a standard output that has been closed nothing arrives. -/
def Surroundings.write (s : Surroundings) (stream : Stream) (text : Bytes) : Surroundings :=
  match stream with
  | .stdout => if s.stdoutOpen then { s with stdout := s.stdout ++ text } else s
  | .stderr => { s with stderr := s.stderr ++ text }
  | .file _ => { s with outputFile := s.outputFile.map (· ++ text) }

/-- A system with what the functional model of `main` does not tell apart: the results of an
activation that succeeds, perhaps with a warning, and of a loop that does not fail, because
the file ends or because the loop is broken off. -/
structure Host extends System where
  activateResult : ℤ
  activate_neg : activateResult < 0 ↔ pcap.activate.isSome = true
  statustostr : ℤ → Bytes
  loopResult : ℤ
  loop_failed : loopResult = -1 ↔ pcap.loop.isSome = true

/-- Every system is that of a host without a warning whose loop ends with the file. -/
theorem exists_host (sys : System) : ∃ host : Host, host.toSystem = sys := by
  refine ⟨{ sys with
    activateResult := if sys.pcap.activate.isSome then -1 else 0, activate_neg := ?_, statustostr := fun _ => []
    loopResult := if sys.pcap.loop.isSome then -1 else 0, loop_failed := ?_ },rfl⟩
  · split <;> simp_all
  · split <;> simp_all

section Respond
variable (host : Host)

/-- A call that answers with a null pointer and leaves the text of the failure behind. -/
def orNull {α : Type} (failure : Option Bytes) (a : α) (s s' : Surroundings) : Option α × Surroundings :=
  match failure with
  | some e => (none,{ s with lastError := e })
  | none => (some a,s')

/-- A call that answers with a status. -/
def orFailed (failure : Option Bytes) (s : Surroundings) : ℤ × Surroundings :=
  match failure with
  | some e => (-1,{ s with lastError := e })
  | none => (0,s)

def opened (failure : Option Bytes) : Except Bytes PcapHandle :=
  match failure with
  | some e => .error e
  | none => .ok 0

/-- The answers of the system; every handle is 0. The lines of the log go to the standard
error. A dump whose path is `-` goes to the standard output and closes it with itself. -/
def respond (s : Surroundings) : (c : SystemCall) → Answer c × Surroundings
  | .findalldevs => (host.pcap.findalldevs,s)
  | .readDevice _ _ => ((),s)
  | .freealldevs _ => ((),s)
  | .create _ => (opened host.pcap.create,s)
  | .openOffline _ => (opened host.pcap.openOffline,s)
  | .setSnaplen _ _ => ((),s)
  | .setPromisc _ _ => ((),s)
  | .setTimeout _ _ => ((),s)
  | .activate _ => (host.activateResult,{ s with lastError := host.pcap.activate.getD s.lastError })
  | .statustostr status => (host.statustostr status,s)
  | .geterr _ => (s.lastError,s)
  | .datalink _ => (host.pcap.datalink,s)
  | .datalinkValToName _ => (host.pcap.datalinkName,s)
  | .compile _ _ => orNull host.pcap.compile 0 s s
  | .setfilter _ _ => orFailed host.pcap.setfilter s
  | .freecode _ => ((),s)
  | .dumpOpen _ path =>
    orNull host.pcap.dumpOpen 0 s (if path = ascii "-" then s.write .stdout host.pcap.dumpHeader else s)
  | .dump d frame => ((),if d.path = ascii "-" then s.write .stdout (host.pcap.dumpRecord frame) else s)
  | .dumpClose d => ((),if d.path = ascii "-" then { s with stdoutOpen := false } else s)
  | .loop _ => ((host.pcap.frames,host.loopResult),{ s with lastError := host.pcap.loop.getD s.lastError })
  | .close _ => ((),s)
  | .fopen _ => if host.outputFileOpens then (some 0,{ s with outputFile := some [] }) else (none,s)
  | .fclose _ => ((),s)
  | .isatty stream => (match stream with | .file _ => host.outputFileIsTerminal | _ => host.stdoutIsTerminal,s)
  | .write stream text => ((),s.write stream text)
  | .log line => ((),{ s with stderr := s.stderr ++ line, logged := s.logged ++ line })
  | .installSignalHandlers => ((),s)
  | .setCaptureHandle _ => ((),s)
  | .clockGettime => (⟨0,0⟩,s)

/-- What the C library contributes on this system. -/
def runtime : Runtime := ⟨host.clock,host.lib,fun _ _ => host.duration⟩

/-- The program ends with this result and leaves these surroundings. -/
def Ends {α : Type} (p : Prog α) (s : Surroundings) (a : α) (s' : Surroundings) : Prop := execute (respond host) p s = (a,s')

variable {host} {α β : Type} {p : Prog α} {f : α → Prog β} {a : α} {b : β} {s s' s'' : Surroundings}

theorem Ends.bind (h : Ends host p s a s') (hf : Ends host (f a) s' b s'') : Ends host (p >>= f) s b s'' := by
  unfold Ends at h hf ⊢
  rw [execute_bind, h, hf]

/-- What some lines of the log and the calls around them leave behind. -/
def Surroundings.noting (s : Surroundings) (lines lastError : Bytes) : Surroundings :=
  { s with stderr := s.stderr ++ lines, logged := s.logged ++ lines, lastError := lastError }

theorem noting_noting (s : Surroundings) (lines lines' e e' : Bytes) :
    (s.noting lines e).noting lines' e' = s.noting (lines ++ lines') e' := by
  simp only [Surroundings.noting, List.append_assoc]

/-- The program ends with this result and writes nothing but lines of the log. -/
def EndsQuietly (host : Host) (p : Prog α) (s : Surroundings) (a : α) : Prop :=
  ∃ lines lastError, Ends host p s a (s.noting lines lastError)

theorem EndsQuietly.bind (h : EndsQuietly host p s a)
    (hf : ∀ lines lastError, EndsQuietly host (f a) (s.noting lines lastError) b) : EndsQuietly host (p >>= f) s b := by
  obtain ⟨lines,e,hp⟩ := h
  obtain ⟨lines',e',hfa⟩ := hf lines e
  rw [noting_noting] at hfa
  exact ⟨lines ++ lines',e',hp.bind hfa⟩

theorem endsQuietly_pure (a : α) (s : Surroundings) : EndsQuietly host (pure a) s a :=
  ⟨[],s.lastError,by simp [Ends, Surroundings.noting]⟩

theorem ends_ask {c : SystemCall} {f : Answer c → Prog β} {r : Answer c} {t : Surroundings} (hr : respond host s c = (r,t))
    (h : Ends host (f r) t b s') : Ends host (ask c >>= f) s b s' := by
  have hp : Ends host (ask c) s r t := hr
  exact hp.bind h

/-- A call that fails leaves the text of its failure behind. -/
theorem endsQuietly_failing {c : SystemCall} {f : Answer c → Prog β} {r : Answer c} {e : Bytes}
    (hr : respond host s c = (r,{ s with lastError := e })) (h : EndsQuietly host (f r) { s with lastError := e } b) :
    EndsQuietly host (ask c >>= f) s b := by
  obtain ⟨lines,e',h⟩ := h
  exact ⟨lines,e',ends_ask hr h⟩

theorem endsQuietly_ask {c : SystemCall} {f : Answer c → Prog β} {r : Answer c} (hr : respond host s c = (r,s))
    (h : EndsQuietly host (f r) s b) : EndsQuietly host (ask c >>= f) s b := endsQuietly_failing hr h

end Respond

/-! ## Opening a capture -/

section Opening
variable {host : Host}

theorem endsQuietly_nsLog (logLevel level : LogLevel) (message : Bytes) (s : Surroundings) :
    EndsQuietly host (nsLog logLevel level message) s () := by
  unfold nsLog
  split
  case isTrue => exact endsQuietly_pure () s
  case isFalse => exact ⟨_,s.lastError,rfl⟩

theorem endsQuietly_resolveLinkType (logLevel : LogLevel) (h : PcapHandle) (n : ℕ) (s : Surroundings) :
    EndsQuietly host (resolveLinkType logLevel h n) s (Netscope.resolveLinkType host.pcap n) := by
  refine endsQuietly_ask rfl (endsQuietly_ask rfl ?_)
  refine (endsQuietly_nsLog _ _ _ s).bind fun d e => ?_
  unfold Netscope.resolveLinkType
  show EndsQuietly host (if host.pcap.datalink ≠ dltEn10mb then _ else _) _ _
  split
  case isTrue => exact endsQuietly_ask rfl (endsQuietly_pure _ _)
  case isFalse => exact endsQuietly_pure _ _

theorem endsQuietly_applyFilter (h : PcapHandle) (bpfFilter : Bytes) (n : ℕ) (s : Surroundings) :
    EndsQuietly host (applyFilter h bpfFilter n) s (Netscope.applyFilter host.pcap bpfFilter n) := by
  unfold applyFilter Netscope.applyFilter
  split
  case isTrue => exact endsQuietly_pure _ s
  case isFalse =>
    cases hcompile : host.pcap.compile with
    | some e =>
      refine endsQuietly_failing (by simp only [respond, hcompile]; rfl) ?_
      exact endsQuietly_ask rfl (endsQuietly_pure _ _)
    | none =>
      refine endsQuietly_ask (by simp only [respond, hcompile]; rfl) ?_
      cases hset : host.pcap.setfilter with
      | some e =>
        refine endsQuietly_failing (by simp only [respond, hset]; rfl) (endsQuietly_ask rfl ?_)
        exact endsQuietly_ask rfl (endsQuietly_pure _ _)
      | none =>
        refine endsQuietly_ask (by simp only [respond, hset]; rfl) (endsQuietly_ask rfl ?_)
        exact endsQuietly_pure _ _

/-- The capture that is opened on a link type. -/
def captureOn (linkType : LinkType) : Capture := ⟨0,linkType,none,0⟩

theorem endsQuietly_finishOpen (logLevel : LogLevel) (bpfFilter : Bytes) (n : ℕ) (s : Surroundings) :
    EndsQuietly host (finishOpen logLevel 0 bpfFilter n) s
      ((do
        let linkType ← Netscope.resolveLinkType host.pcap n
        Netscope.applyFilter host.pcap bpfFilter n
        return linkType : Except Bytes LinkType).map captureOn) := by
  refine (endsQuietly_resolveLinkType logLevel 0 n s).bind fun d e => ?_
  cases Netscope.resolveLinkType host.pcap n with
  | error message => exact endsQuietly_ask rfl (endsQuietly_pure _ _)
  | ok linkType =>
    refine (endsQuietly_applyFilter 0 bpfFilter n _).bind fun d e => ?_
    cases Netscope.applyFilter host.pcap bpfFilter n with
    | error message => exact endsQuietly_ask rfl (endsQuietly_pure _ _)
    | ok _ => exact endsQuietly_pure _ _

theorem endsQuietly_nsCaptureOpenOffline (logLevel : LogLevel) (path bpfFilter : Bytes) (n : ℕ) (s : Surroundings) :
    EndsQuietly host (nsCaptureOpenOffline logLevel path bpfFilter n) s
      ((Netscope.nsCaptureOpenOffline host.pcap path bpfFilter n).map captureOn) := by
  unfold Netscope.nsCaptureOpenOffline
  cases hopen : host.pcap.openOffline with
  | some e => exact endsQuietly_ask (by simp only [respond, hopen]; rfl) (endsQuietly_pure _ _)
  | none =>
    refine endsQuietly_ask (by simp only [respond, hopen]; rfl) ?_
    exact endsQuietly_finishOpen logLevel bpfFilter n s

theorem endsQuietly_warnActivate (logLevel : LogLevel) (interface : Bytes) (activateResult : ℤ) (s : Surroundings) :
    EndsQuietly host (warnActivate logLevel interface activateResult) s () := by
  unfold warnActivate
  split
  case isTrue => exact endsQuietly_ask rfl (endsQuietly_nsLog _ _ _ s)
  case isFalse => exact endsQuietly_pure () s

theorem endsQuietly_nsCaptureOpenLive (logLevel : LogLevel) (interface bpfFilter : Bytes) (n : ℕ) (s : Surroundings) :
    EndsQuietly host (nsCaptureOpenLive logLevel interface bpfFilter n) s
      ((Netscope.nsCaptureOpenLive host.pcap interface bpfFilter n).map captureOn) := by
  unfold Netscope.nsCaptureOpenLive
  cases hcreate : host.pcap.create with
  | some e => exact endsQuietly_ask (by simp only [respond, hcreate]; rfl) (endsQuietly_pure _ _)
  | none =>
    refine endsQuietly_ask (by simp only [respond, hcreate]; rfl) ?_
    refine endsQuietly_ask rfl (endsQuietly_ask rfl (endsQuietly_ask rfl ?_))
    cases hactivate : host.pcap.activate with
    | some e =>
      have hfailed : host.activateResult < 0 := host.activate_neg.mpr (by simp [hactivate])
      refine endsQuietly_failing (by simp only [respond, hactivate]; rfl) ?_
      rw [if_pos hfailed]
      exact endsQuietly_ask rfl (endsQuietly_ask rfl (endsQuietly_pure _ _))
    | none =>
      have hactive : ¬host.activateResult < 0 := fun h => by simp [host.activate_neg, hactivate] at h
      refine endsQuietly_ask (by simp only [respond, hactivate]; rfl) ?_
      rw [if_neg hactive]
      exact (endsQuietly_warnActivate _ _ _ s).bind fun _ _ => endsQuietly_finishOpen logLevel bpfFilter n _

end Opening

/-! ## The packets -/

section Packets
variable {host : Host} {config : Config}

/-- The stream of the packets. -/
def outputStream (config : Config) : Stream := if usesOutputFile config then .file 0 else .stdout

/-- The state of the loop is what the streams show and what the context holds. -/
structure Shows (host : Host) (config : Config) (ls : LoopState) (ctx : MainCtx) (s : Surroundings) : Prop where
  stats : ctx.stats = ls.stats
  outputOpts : ctx.outputOpts = outputOptions host.toSystem config
  out : ctx.out = outputStream config
  stdout : s.stdout = ls.stdout
  stdoutOpen : s.stdoutOpen = true
  stderr : s.stderr = s.logged
  outputFile : s.outputFile = if usesOutputFile config then some ls.outputFile else none
  failure : ∀ e, host.pcap.loop = some e → s.lastError = e

/-- Whether the dump of a capture goes to the standard output. -/
def dumpsToDash (cap : Capture) : Bool := cap.dumper.any fun d => d.path = ascii "-"

/-- The capture hands on its `i`-th packet next, and its dump goes where it is asked to go. -/
structure AtPacket (config : Config) (linkType : LinkType) (i : ℕ) (cap : Capture) : Prop where
  linkType : cap.linkType = linkType
  number : cap.nextPacketNumber = UInt64.ofNat i
  dumper : dumpsToDash cap = dumpsToStdout config

variable {linkType : LinkType} {i : ℕ} {ls : LoopState} {cap : Capture} {ctx : MainCtx} {s : Surroundings}

theorem dumpPacket_ends (cap : Capture) (frame : PcapFrame) (s : Surroundings) :
    Ends host (dumpPacket cap frame) s ()
      (if dumpsToDash cap then s.write .stdout (host.pcap.dumpRecord frame) else s) := by
  unfold dumpPacket dumpsToDash
  cases cap.dumper with
  | none => rfl
  | some d => simp [Ends, ask, Program.request, execute, respond]

theorem dumpPacket_shows (hcap : AtPacket config linkType i cap) (h : Shows host config ls ctx s) (frame : PcapFrame) :
    ∃ s', Ends host (dumpPacket cap frame) s () s' ∧
      Shows host config (if dumpsToStdout config then { ls with stdout := ls.stdout ++ host.pcap.dumpRecord frame } else ls)
        ctx s' := by
  refine ⟨_,dumpPacket_ends cap frame s,?_⟩
  rw [hcap.dumper]
  split
  case isTrue =>
    rw [Surroundings.write, if_pos h.stdoutOpen]
    exact { h with stdout := congrArg (· ++ host.pcap.dumpRecord frame) h.stdout }
  case isFalse => exact h

theorem handlePacket_shows (h : Shows host config ls ctx s) (pkt : Packet) :
    ∃ ctx' s', Ends host (handlePacket (runtime host) ctx pkt) s ctx' s' ∧
      Shows host config (Netscope.handlePacket host.toSystem config ls pkt) ctx' s' := by
  refine ⟨_,_,ends_ask rfl rfl,?_⟩
  have hstats : nsStatsUpdate ctx.stats pkt = nsStatsUpdate ls.stats pkt := by rw [h.stats]
  have htext : nsOutputPacket (runtime host).clock pkt ctx.outputOpts =
      nsOutputPacket host.clock pkt (outputOptions host.toSystem config) := by
    rw [h.outputOpts]
    rfl
  have hfile := h.outputFile
  dsimp only
  rw [htext, h.out]
  unfold outputStream Netscope.handlePacket
  by_cases huse : usesOutputFile config = true
  · rw [if_pos huse] at hfile
    refine ⟨hstats,h.outputOpts,rfl,?_,?_,?_,?_,?_⟩ <;>
      simp only [Surroundings.write, huse, hfile, h.stdout, h.stdoutOpen, h.stderr, if_true, Option.map_some]
    exact h.failure
  · rw [if_neg huse] at hfile
    refine ⟨hstats,h.outputOpts,rfl,?_,?_,?_,?_,?_⟩ <;>
      simp only [Surroundings.write, huse, hfile, h.stdout, h.stdoutOpen, h.stderr, if_true, if_false, Bool.false_eq_true]
    exact h.failure

theorem pcapPacketCallback_shows (hcap : AtPacket config linkType i cap) (h : Shows host config ls ctx s) (frame : PcapFrame) :
    ∃ cap' ctx' s', Ends host (pcapPacketCallback (handlePacket (runtime host)) cap ctx frame) s (cap',ctx') s' ∧
      AtPacket config linkType (i + 1) cap' ∧ Shows host config (onFrame host.toSystem config linkType ls (frame,i)) ctx' s' := by
  have hnumber : cap.nextPacketNumber + 1 = UInt64.ofNat (i + 1) := by
    rw [hcap.number, UInt64.ofNat_add]
    rfl
  have hpkt : nsPacketParse frame.data frame.len frame.ts (cap.nextPacketNumber + 1) cap.linkType =
      Netscope.pcapPacketCallback linkType i frame := by
    rw [hnumber, hcap.linkType]
    rfl
  obtain ⟨s₁,hdump,hs₁⟩ := dumpPacket_shows hcap h frame
  obtain ⟨ctx₁,s₂,hhandle,hs₂⟩ := handlePacket_shows hs₁ (Netscope.pcapPacketCallback linkType i frame)
  rw [← hpkt] at hhandle
  exact ⟨_,ctx₁,s₂,hdump.bind (hhandle.bind rfl),⟨hcap.linkType,hnumber,hcap.dumper⟩,hs₂⟩

/-- One callback after another does what the functional loop does. -/
theorem pcapLoop_shows (frames : List PcapFrame) (hcap : AtPacket config linkType i cap) (h : Shows host config ls ctx s) :
    ∃ cap' ctx' s', Ends host (pcapLoop (handlePacket (runtime host)) cap ctx frames) s (cap',ctx') s' ∧
      AtPacket config linkType (i + frames.length) cap' ∧
      Shows host config ((frames.zipIdx i).foldl (onFrame host.toSystem config linkType) ls) ctx' s' := by
  induction frames generalizing i cap ls ctx s with
  | nil => exact ⟨cap,ctx,s,rfl,hcap,h⟩
  | cons frame rest ih =>
    obtain ⟨cap₁,ctx₁,s₁,hfirst,hcap₁,hs₁⟩ := pcapPacketCallback_shows hcap h frame
    obtain ⟨cap₂,ctx₂,s₂,hrest,hcap₂,hs₂⟩ := ih hcap₁ hs₁
    refine ⟨cap₂,ctx₂,s₂,hfirst.bind hrest,?_,hs₂⟩
    rwa [List.length_cons, Nat.add_comm rest.length, ← Nat.add_assoc]

end Packets

/-! ## `main` -/

section Main
variable {host : Host} {config : Config}

/-- The outcome is the status and what the streams show; the lines of the log come before
the messages. -/
def Matches (outcome : Outcome) (status : ℕ) (s : Surroundings) : Prop :=
  outcome.status = status ∧ outcome.stdout = s.stdout ∧ s.stderr = s.logged ++ outcome.stderr ∧ outcome.outputFile = s.outputFile

/-- The program ends as the outcome says. -/
def EndsAs (host : Host) (p : Prog ℕ) (s : Surroundings) (outcome : Outcome) : Prop :=
  ∃ status s', Ends host p s status s' ∧ Matches outcome status s'

theorem EndsAs.after {α : Type} {p : Prog α} {f : α → Prog ℕ} {a : α} {s t : Surroundings} {outcome : Outcome}
    (hp : Ends host p s a t) (h : EndsAs host (f a) t outcome) : EndsAs host (p >>= f) s outcome := by
  obtain ⟨status,s',hf,hmatches⟩ := h
  exact ⟨status,s',hp.bind hf,hmatches⟩

theorem EndsAs.afterAsk {c : SystemCall} {f : Answer c → Prog ℕ} {r : Answer c} {s t : Surroundings} {outcome : Outcome}
    (hr : respond host s c = (r,t)) (h : EndsAs host (f r) t outcome) : EndsAs host (ask c >>= f) s outcome :=
  EndsAs.after (p := ask c) hr h

/-- Closing a capture closes its dump, and with a dump to the standard output that stream. -/
theorem nsCaptureClose_ends (cap : Capture) (s : Surroundings) :
    Ends host (nsCaptureClose cap) s () { s with stdoutOpen := s.stdoutOpen && !dumpsToDash cap } := by
  have hdump : Ends host (closeDump cap) s () { s with stdoutOpen := s.stdoutOpen && !dumpsToDash cap } := by
    unfold closeDump dumpsToDash
    cases cap.dumper with
    | none => simp [Ends]
    | some d => by_cases hpath : d.path = ascii "-" <;> simp [Ends, ask, Program.request, execute, respond, hpath]
  exact hdump.bind rfl

theorem endsAs_stop (message : Bytes) {s : Surroundings} {outcome : Outcome} (hstatus : outcome.status = 1)
    (hstdout : outcome.stdout = s.stdout) (hstderr : s.stderr ++ printError message = s.logged ++ outcome.stderr)
    (hfile : outcome.outputFile = s.outputFile) : EndsAs host (stop message) s outcome :=
  ⟨1,_,ends_ask rfl rfl,hstatus,hstdout,hstderr,hfile⟩

/-- A message and the closing of the capture, when an output cannot be opened. -/
theorem endsAs_giveUp (message : Bytes) (cap : Capture) {s : Surroundings} {outcome : Outcome} (hstatus : outcome.status = 1)
    (hstdout : outcome.stdout = s.stdout) (hstderr : s.stderr ++ printError message = s.logged ++ outcome.stderr)
    (hfile : outcome.outputFile = s.outputFile) :
    EndsAs host (fprintf .stderr (printError message) >>= fun _ => nsCaptureClose cap >>= fun _ => pure 1) s outcome :=
  EndsAs.afterAsk rfl (EndsAs.after (nsCaptureClose_ends cap _) ⟨1,_,rfl,hstatus,hstdout,hstderr,hfile⟩)

/-- From the opened outputs on. -/
theorem capture_endsAs {cap : Capture} {linkType : LinkType} {s : Surroundings} {bpfExpr : Bytes}
    (hcap : AtPacket config linkType 0 cap) (hstderr : s.stderr = s.logged) (hopen : s.stdoutOpen = true)
    (hfile : s.outputFile = if usesOutputFile config then some [] else none) :
    EndsAs host (capture (runtime host) config cap (outputStream config)) s
      (runCapture host.toSystem config linkType bpfExpr s.stdout) := by
  have hcolor : Ends host (nsOutputShouldUseColor config.noColor (outputStream config)) s
      (outputOptions host.toSystem config).color s := by
    unfold nsOutputShouldUseColor outputOptions outputStream
    split_ifs with hnoColor huse
    · rfl
    · rw [if_pos huse]
      rfl
    · rw [if_neg huse]
      rfl
  have hbanner : Ends host (printBanner config) s () { s with stdout := s.stdout ++ banner config } := by
    unfold printBanner banner
    split
    case isTrue =>
      refine (ends_ask rfl rfl : Ends host (fprintf .stdout _ >>= pure) s () (s.write .stdout _)).trans ?_
      rw [Surroundings.write, if_pos hopen]
    case isFalse => simp [Ends]
  let started : Surroundings := { s with stdout := s.stdout ++ banner config }
  let looping : Surroundings := { started with lastError := host.pcap.loop.getD started.lastError }
  let ctx : MainCtx := ⟨nsStatsInit,outputOptions host.toSystem config,outputStream config⟩
  have hlooping : Shows host config ⟨nsStatsInit,s.stdout ++ banner config,[]⟩ ctx looping := by
    refine ⟨rfl,rfl,rfl,rfl,hopen,hstderr,hfile,fun e he => ?_⟩
    simp [looping, he]
  obtain ⟨cap',ctx',s',hloop,hcap',hs'⟩ := pcapLoop_shows host.pcap.frames hcap hlooping
  have hrun : Ends host (nsCaptureRun (handlePacket (runtime host)) cap ctx errLen) started
      (Netscope.nsCaptureRun host.pcap errLen,cap',ctx') s' := by
    refine ends_ask rfl (ends_ask rfl (hloop.bind (ends_ask rfl ?_)))
    unfold Netscope.nsCaptureRun
    cases hfailure : host.pcap.loop with
    | some e =>
      rw [if_pos (host.loop_failed.mpr (by simp [hfailure]))]
      refine ends_ask (r := e) ?_ rfl
      rw [respond, hs'.failure e hfailure]
    | none =>
      rw [if_neg fun h => by simp [host.loop_failed, hfailure] at h]
      rfl
  refine EndsAs.after hcolor (EndsAs.after hbanner (EndsAs.afterAsk rfl (EndsAs.afterAsk rfl ?_)))
  refine EndsAs.after hrun (EndsAs.afterAsk rfl (EndsAs.after (nsCaptureClose_ends cap' s') ?_))
  rw [hs'.stdoutOpen, hcap'.dumper, Bool.true_and]
  let closed : Surroundings := { s' with stdoutOpen := !dumpsToStdout config }
  have hcloseOutput : Ends host (closeOutput (outputStream config)) closed () closed := by
    unfold closeOutput outputStream
    split_ifs <;> rfl
  refine EndsAs.after hcloseOutput ?_
  unfold runCapture
  dsimp only
  cases Netscope.nsCaptureRun host.pcap errLen with
  | error e => exact endsAs_stop e rfl hs'.stdout.symm (congrArg (· ++ _) hs'.stderr) hs'.outputFile.symm
  | ok _ =>
    have hlogged : closed.stderr = closed.logged ++ [] := hs'.stderr.trans (List.append_nil _).symm
    dsimp only
    by_cases hstats : config.showStats = true ∨ config.inputMode = .live
    · rw [printStats, if_pos hstats, ← hs'.stats]
      refine ⟨0,_,ends_ask rfl rfl,?_⟩
      by_cases hto : dumpsToStdout config = true
      · have hclosed : ¬closed.stdoutOpen = true := by simp [closed, hto]
        rw [if_neg fun h => h.2 hto, Surroundings.write, if_neg hclosed]
        exact ⟨rfl,hs'.stdout.symm,hlogged,hs'.outputFile.symm⟩
      · have hclosed : closed.stdoutOpen = true := by simp [closed, hto]
        rw [if_pos ⟨hstats,hto⟩, Surroundings.write, if_pos hclosed]
        exact ⟨rfl,congrArg (· ++ _) hs'.stdout.symm,hlogged,hs'.outputFile.symm⟩
    · rw [printStats, if_neg hstats, if_neg fun h => hstats h.1]
      exact ⟨0,closed,rfl,rfl,hs'.stdout.symm,hlogged,hs'.outputFile.symm⟩

theorem openOutput_endsAs {cap : Capture} {linkType : LinkType} {s : Surroundings} {bpfExpr : Bytes}
    (hcap : AtPacket config linkType 0 cap) (hstderr : s.stderr = s.logged) (hopen : s.stdoutOpen = true)
    (hfile : s.outputFile = none) :
    EndsAs host (openOutput (runtime host) config cap) s
      (if usesOutputFile config ∧ ¬host.outputFileOpens then
        { failed (snprintf 512 (ascii "failed to open '" ++ config.outputFile.bytes ++ ascii "' for writing")) with
          stdout := s.stdout, captureFilter := some bpfExpr }
      else runCapture host.toSystem config linkType bpfExpr s.stdout) := by
  unfold openOutput
  by_cases huse : usesOutputFile config = true
  · have huse' : config.format = .json ∧ config.outputFile.bytes ≠ [] := by simpa [usesOutputFile] using huse
    rw [if_pos huse']
    cases hopens : host.outputFileOpens with
    | false =>
      refine EndsAs.afterAsk (r := none) (t := s) (by simp only [respond, hopens]; rfl) ?_
      rw [if_pos ⟨huse,by simp⟩]
      exact endsAs_giveUp _ cap rfl rfl (congrArg (· ++ _) hstderr) hfile.symm
    | true =>
      refine EndsAs.afterAsk (r := some 0) (t := { s with outputFile := some [] }) (by simp only [respond, hopens]; rfl) ?_
      rw [if_neg (by simp)]
      have h := @capture_endsAs host config cap linkType { s with outputFile := some [] } bpfExpr hcap hstderr hopen
        (by rw [if_pos huse])
      rw [outputStream, if_pos huse] at h
      exact h
  · have huse' : ¬(config.format = .json ∧ config.outputFile.bytes ≠ []) := by simpa [usesOutputFile] using huse
    rw [if_neg huse', if_neg fun h => huse h.1]
    have h := @capture_endsAs host config cap linkType s bpfExpr hcap hstderr hopen (by rw [if_neg huse, hfile])
    rw [outputStream, if_neg huse] at h
    exact h

theorem openCapture_endsAs (bpfExpr : Bytes) :
    EndsAs host (openCapture (runtime host) config bpfExpr) .start (Netscope.openCapture host.toSystem config bpfExpr) := by
  have hopened : EndsQuietly host (if config.inputMode = .live then
      nsCaptureOpenLive config.logLevel config.interface.bytes bpfExpr errLen
      else nsCaptureOpenOffline config.logLevel config.readFile.bytes bpfExpr errLen) .start
      ((if config.inputMode = .live then Netscope.nsCaptureOpenLive host.pcap config.interface.bytes bpfExpr errLen
        else Netscope.nsCaptureOpenOffline host.pcap config.readFile.bytes bpfExpr errLen).map captureOn) := by
    split
    case isTrue => exact endsQuietly_nsCaptureOpenLive _ _ _ _ _
    case isFalse => exact endsQuietly_nsCaptureOpenOffline _ _ _ _ _
  obtain ⟨lines,e,hopened⟩ := hopened
  refine EndsAs.after hopened ?_
  unfold Netscope.openCapture
  cases (if config.inputMode = .live then Netscope.nsCaptureOpenLive host.pcap config.interface.bytes bpfExpr errLen
    else Netscope.nsCaptureOpenOffline host.pcap config.readFile.bytes bpfExpr errLen) with
  | error message => exact endsAs_stop message rfl rfl rfl rfl
  | ok linkType =>
    dsimp only [Except.map]
    unfold openOutputs
    let s : Surroundings := Surroundings.start.noting lines e
    by_cases hwrite : config.writeFile.bytes ≠ []
    · rw [if_pos hwrite, if_pos hwrite]
      cases hdump : host.pcap.dumpOpen with
      | some message =>
        have hfailed : Ends host (nsCaptureOpenDump (captureOn linkType) config.writeFile.bytes errLen) s
            (.error (snprintf errLen (ascii "failed to open '" ++ config.writeFile.bytes ++ ascii "' for writing: " ++ message)))
            { s with lastError := message } :=
          ends_ask (r := none) (t := { s with lastError := message }) (by simp only [respond, hdump]; rfl) (ends_ask rfl rfl)
        refine EndsAs.after hfailed ?_
        simp only [Netscope.nsCaptureOpenDump, hdump]
        exact endsAs_giveUp _ _ rfl rfl rfl rfl
      | none =>
        let dumping : Surroundings := { s with stdout := if dumpsToStdout config then host.pcap.dumpHeader else [] }
        have hok : Ends host (nsCaptureOpenDump (captureOn linkType) config.writeFile.bytes errLen) s
            (.ok { captureOn linkType with dumper := some ⟨0,config.writeFile.bytes⟩ }) dumping := by
          refine ends_ask (r := some 0) ?_ rfl
          simp only [respond, hdump, orNull, dumping, dumpsToStdout]
          by_cases hto : config.writeFile.bytes = ascii "-" <;>
            simp [hto, s, Surroundings.start, Surroundings.noting, Surroundings.write]
        refine EndsAs.after hok ?_
        simp only [Netscope.nsCaptureOpenDump, hdump]
        exact @openOutput_endsAs host config _ linkType dumping bpfExpr ⟨rfl,rfl,rfl⟩ rfl rfl rfl
    · rw [if_neg hwrite, if_neg hwrite]
      have hto : dumpsToStdout config = false := by
        refine decide_eq_false fun h => hwrite ?_
        rw [h]
        decide
      rw [hto]
      exact @openOutput_endsAs host config _ linkType s bpfExpr ⟨rfl,rfl,hto.symm⟩ rfl rfl rfl

/-- The program ends with this status, without a fault. -/
def EndsWell (host : Host) (p : Prog (Exec ℕ)) (outcome : Outcome) : Prop :=
  ∃ status s', Ends host p .start (.ok status) s' ∧ Matches outcome status s'

theorem EndsAs.endsWell {p : Prog ℕ} {outcome : Outcome} (h : EndsAs host p .start outcome) :
    EndsWell host (Except.ok <$> p) outcome := by
  obtain ⟨status,s',hp,hmatches⟩ := h
  exact ⟨status,s',hp.bind rfl,hmatches⟩

theorem EndsWell.after {α : Type} {p : Prog α} {f : α → Prog (Exec ℕ)} {a : α} {outcome : Outcome}
    (hp : Ends host p .start a .start) (h : EndsWell host (f a) outcome) : EndsWell host (p >>= f) outcome := by
  obtain ⟨status,s',hf,hmatches⟩ := h
  exact ⟨status,s',hp.bind hf,hmatches⟩

/-- A run that prints one text and succeeds. -/
theorem endsWell_printed (text : Bytes) : EndsWell host (fprintf .stdout text >>= fun _ => pure (.ok 0)) (printed text) :=
  ⟨0,_,ends_ask rfl rfl,rfl,rfl,rfl,rfl⟩

theorem endsWell_failed (message : Bytes) : EndsWell host (Except.ok <$> stop message) (failed message) :=
  EndsAs.endsWell (endsAs_stop message rfl rfl rfl rfl)

theorem printDevices_ends (all : List Device) (devices : List (ℕ × Device)) {s : Surroundings} (hopen : s.stdoutOpen = true) :
    Ends host (printDevices .stdout all devices) s ()
      { s with stdout := s.stdout ++ (devices.map fun x => printDevice x.1 x.2).flatten } := by
  induction devices generalizing s with
  | nil => simp [Ends, printDevices]
  | cons x rest ih =>
    have hwrite : s.write .stdout (printDevice x.1 x.2) = { s with stdout := s.stdout ++ printDevice x.1 x.2 } := if_pos hopen
    refine ends_ask rfl (ends_ask rfl ?_)
    rw [hwrite]
    have h := @ih { s with stdout := s.stdout ++ printDevice x.1 x.2 } hopen
    simpa only [List.map_cons, List.flatten_cons, List.append_assoc] using h

/-- Listing the interfaces. -/
theorem listInterfaces_endsWell : EndsWell host (nsCaptureListInterfaces .stdout >>= fun listed =>
      match listed with
      | .error e => Except.ok <$> stop e
      | .ok () => pure (.ok 0))
    (match Netscope.nsCaptureListInterfaces host.pcap with
      | .error e => failed e
      | .ok text => printed text) := by
  unfold Netscope.nsCaptureListInterfaces
  cases hfound : host.pcap.findalldevs with
  | error e =>
    have h : Ends host (nsCaptureListInterfaces .stdout) .start (.error e) .start :=
      ends_ask (r := .error e) (by simp only [respond, hfound]) rfl
    exact EndsWell.after h (endsWell_failed e)
  | ok devices =>
    cases devices with
    | nil =>
      have h : Ends host (nsCaptureListInterfaces .stdout) .start _ _ :=
        ends_ask (r := .ok []) (t := .start) (by simp only [respond, hfound]) (ends_ask rfl rfl)
      exact ⟨0,_,h.bind rfl,rfl,rfl,rfl,rfl⟩
    | cons dev rest =>
      have hdevices := @printDevices_ends host (dev :: rest) ((dev :: rest).mapIdx fun index dev => (index,dev))
        (Surroundings.start.write .stdout (ascii "Available interfaces:" ++ [newline,newline])) rfl
      have h : Ends host (nsCaptureListInterfaces .stdout) .start _ _ :=
        ends_ask (r := .ok (dev :: rest)) (t := .start) (by simp only [respond, hfound])
          (ends_ask rfl (hdevices.bind (ends_ask rfl rfl)))
      refine ⟨0,_,h.bind rfl,rfl,?_,rfl,rfl⟩
      simp only [List.mapIdx_eq_zipIdx_map, List.map_map]
      rfl

/-- The search finds a device of the rest of the list. -/
theorem findDevice_ends (name : Bytes) (all : List Device) (devices : List (ℕ × Device)) (s : Surroundings) :
    Ends host (findDevice name all devices) s (devices.any fun x => x.2.name = name) s := by
  induction devices with
  | nil => rfl
  | cons x rest ih =>
    refine ends_ask rfl ?_
    by_cases hname : x.2.name = name
    · rw [if_pos hname]
      simp [Ends, hname]
    · rw [if_neg hname, List.any_cons, decide_eq_false hname, Bool.false_or]
      exact ih

theorem nsCaptureInterfaceExists_ends (name : Bytes) :
    Ends host (nsCaptureInterfaceExists name) .start (Netscope.nsCaptureInterfaceExists host.pcap name) .start := by
  unfold Netscope.nsCaptureInterfaceExists
  cases hfound : host.pcap.findalldevs with
  | error e => exact ends_ask (r := .error e) (by simp only [respond, hfound]) rfl
  | ok devices =>
    have hfind := @findDevice_ends host name devices (devices.mapIdx fun index dev => (index,dev)) .start
    have hany : ((devices.mapIdx fun index dev => (index,dev)).any fun x => x.2.name = name) =
        devices.any fun dev => dev.name = name := by
      rw [List.mapIdx_eq_zipIdx_map, List.any_map]
      conv_rhs => rw [← List.zipIdx_map_fst 0 devices, List.any_map]
      rfl
    rw [hany] at hfind
    exact ends_ask (r := .ok devices) (by simp only [respond, hfound]) (hfind.bind (ends_ask rfl rfl))

/-- The filter is built without a fault. -/
theorem builtFilter_eq (config : Config) : builtFilter config =
    .ok (if (writtenExpression (filterSpec config)).length < configStrLen * 2 then some (writtenExpression (filterSpec config))
      else none) := by
  obtain ⟨ok,cells,hbuild,hok,hload⟩ := nsFilterBuildBpf_loaded (filterSpec config)
  unfold builtFilter
  rw [hbuild, ok_bind]
  cases ok with
  | false =>
    rw [if_neg (hok.not.mp Bool.false_ne_true)]
    rfl
  | true =>
    rw [if_pos (hok.mp rfl)]
    change (loadString _ >>= fun bpfExpr => pure (some bpfExpr)) = _
    rw [hload rfl, ok_bind]
    rfl

theorem filterAndCapture_endsWell (config : Config) : EndsWell host (filterAndCapture (runtime host) config)
    (if (writtenExpression (filterSpec config)).length < configStrLen * 2 then
      Netscope.openCapture host.toSystem config (writtenExpression (filterSpec config))
    else failed tooLong) := by
  unfold filterAndCapture
  rw [builtFilter_eq]
  split_ifs
  · exact EndsAs.endsWell (openCapture_endsAs _)
  · exact endsWell_failed _

theorem main_endsWell (host : Host) (args : CommandLine) : ∃ outcome, Netscope.main host.toSystem args = .ok outcome ∧
    EndsWell host (main (runtime host) args) outcome := by
  unfold Netscope.main main
  cases hparse : nsConfigParse args errLen with
  | error e =>
    refine ⟨_,rfl,1,_,rfl,rfl,rfl,?_,rfl⟩
    simp only [failed, List.append_assoc]
    rfl
  | ok config =>
    dsimp only
    unfold runConfig
    by_cases hhelp : config.showHelp = true
    · rw [if_pos hhelp, Netscope.runConfig, if_pos hhelp]
      exact ⟨_,rfl,endsWell_printed _⟩
    by_cases hversion : config.showVersion = true
    · rw [if_neg hhelp, if_pos hversion, Netscope.runConfig, if_neg hhelp, if_pos hversion]
      exact ⟨_,rfl,endsWell_printed _⟩
    by_cases hlist : config.listInterfaces = true
    · rw [if_neg hhelp, if_neg hversion, if_pos hlist, Netscope.runConfig, if_neg hhelp, if_neg hversion, if_pos hlist]
      refine ⟨_,?_,listInterfaces_endsWell⟩
      cases Netscope.nsCaptureListInterfaces host.pcap <;> rfl
    rw [if_neg hhelp, if_neg hversion, if_neg hlist]
    have hreach (hexists : config.inputMode = .live → Netscope.nsCaptureInterfaceExists host.pcap config.interface.bytes = true) :
        ReachesCapture host.toSystem config :=
      ⟨Bool.eq_false_iff.mpr hhelp,Bool.eq_false_iff.mpr hversion,Bool.eq_false_iff.mpr hlist,hexists⟩
    by_cases hlive : config.inputMode = .live
    · rw [if_pos hlive]
      have hexists := @nsCaptureInterfaceExists_ends host config.interface.bytes
      cases hfound : Netscope.nsCaptureInterfaceExists host.pcap config.interface.bytes with
      | true =>
        rw [hfound] at hexists
        rw [runConfig_capture (hreach fun _ => hfound)]
        exact ⟨_,rfl,EndsWell.after hexists (filterAndCapture_endsWell config)⟩
      | false =>
        rw [hfound] at hexists
        rw [Netscope.runConfig, if_neg hhelp, if_neg hversion, if_neg hlist, if_pos ⟨hlive,by simp [hfound]⟩]
        exact ⟨_,rfl,EndsWell.after hexists (endsWell_failed _)⟩
    · rw [if_neg hlive, runConfig_capture (hreach fun h => absurd h hlive)]
      exact ⟨_,rfl,filterAndCapture_endsWell config⟩

/-- The functional model of `main` is what the program of calls does on a system: its execution
is one of its runs and ends with the same status, the same standard output and output file, and
on the standard error the lines of the log and then the same messages. -/
theorem main_refines_calls (host : Host) (args : CommandLine) : ∃ outcome, Netscope.main host.toSystem args = .ok outcome ∧
    ∃ status s, execute (respond host) (main (runtime host) args) .start = (.ok status,s) ∧
      Runs (main (runtime host) args) (transcript (respond host) (main (runtime host) args) .start) (.ok status) ∧
      outcome.status = status ∧ outcome.stdout = s.stdout ∧ s.stderr = s.logged ++ outcome.stderr ∧
      outcome.outputFile = s.outputFile := by
  obtain ⟨outcome,hmain,status,s,hends,hmatches⟩ := main_endsWell host args
  have hruns := runs_execute (respond host) (main (runtime host) args) .start
  rw [show execute (respond host) (main (runtime host) args) .start = (.ok status,s) from hends] at hruns
  exact ⟨outcome,hmain,status,s,hends,hruns,hmatches⟩

end Main

end Netscope.Calls
