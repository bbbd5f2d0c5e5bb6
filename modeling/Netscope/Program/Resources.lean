import Netscope.CommandLine.JsonStream
import Netscope.Library.Ledger
import Netscope.Program.Refinement

/-! # Resources

What `main` opens and closes, on every path and whatever its calls answer: device lists,
capture handles, compiled filters, dumps, output files and the standard output, which a dump
to `-` closes with itself. A ledger keeps what is open. Beside it stands the order that libpcap
asks for: options before the activation, packets behind it, and the signal handler told of a
handle only as long as it is open.
-/
namespace Netscope.Calls
open ByteString Numerals PartialMemory Interaction EventRuns Ledger

inductive Resource where
  | stdout
  | devices (list : List Device)
  | capture (h : PcapHandle)
  | code (program : Code)
  | dumper (d : Dumper)
  | file (f : FileHandle)
deriving DecidableEq

/-- The stream behind a dump. -/
def Dumper.resource (d : Dumper) : Resource := if d.path = ascii "-" then .stdout else .dumper d

/-- The resources that a call works on. -/
def needs : Exchange Answer → List Resource
  | ⟨.readDevice devices _,_⟩ => [.devices devices]
  | ⟨.setSnaplen h _,_⟩ => [.capture h]
  | ⟨.setPromisc h _,_⟩ => [.capture h]
  | ⟨.setTimeout h _,_⟩ => [.capture h]
  | ⟨.activate h,_⟩ => [.capture h]
  | ⟨.geterr h,_⟩ => [.capture h]
  | ⟨.datalink h,_⟩ => [.capture h]
  | ⟨.compile h _,_⟩ => [.capture h]
  | ⟨.setfilter h program,_⟩ => [.capture h,.code program]
  | ⟨.dumpOpen h _,_⟩ => [.capture h]
  | ⟨.dump d _,_⟩ => [d.resource]
  | ⟨.loop h,_⟩ => [.capture h]
  | ⟨.setCaptureHandle (some h),_⟩ => [.capture h]
  | ⟨.isatty .stdout,_⟩ => [.stdout]
  | ⟨.isatty (.file f),_⟩ => [.file f]
  | ⟨.write .stdout _,_⟩ => [.stdout]
  | ⟨.write (.file f) _,_⟩ => [.file f]
  | _ => []

/-- The resource that a call gives back. An empty device list is a null pointer. -/
def gives : Exchange Answer → Option Resource
  | ⟨.freealldevs (dev :: rest),_⟩ => some (.devices (dev :: rest))
  | ⟨.freecode program,_⟩ => some (.code program)
  | ⟨.dumpClose d,_⟩ => some d.resource
  | ⟨.close h,_⟩ => some (.capture h)
  | ⟨.fclose f,_⟩ => some (.file f)
  | _ => none

/-- The resource that a call takes when it succeeds. The standard output is open from the start. -/
def takes : Exchange Answer → Option Resource
  | ⟨.findalldevs,.ok (dev :: rest)⟩ => some (.devices (dev :: rest))
  | ⟨.create _,.ok h⟩ => some (.capture h)
  | ⟨.openOffline _,.ok h⟩ => some (.capture h)
  | ⟨.compile _ _,some program⟩ => some (.code program)
  | ⟨.dumpOpen _ path,some d⟩ => if path = ascii "-" then none else some (.dumper ⟨d,path⟩)
  | ⟨.fopen _,some f⟩ => some (.file f)
  | _ => none

def effect (x : Exchange Answer) : Effect Resource := ⟨needs x,gives x,takes x⟩

/-- The effect with or without the uses of the standard output. -/
def watched (strict : Bool) (x : Exchange Answer) : Effect Resource :=
  ⟨(needs x).filter fun r => strict ∨ r ≠ .stdout,gives x,takes x⟩

inductive Setting where
  | snaplen
  | promisc
  | timeout
deriving DecidableEq

/-- What is set on the handles before they are activated, the activated handles, whether the
handler is installed and the handle it would stop. -/
structure Stage where
  settings : List (PcapHandle × Setting)
  active : List PcapHandle
  installed : Bool
  published : Option PcapHandle
deriving DecidableEq

def Stage.start : Stage := ⟨[],[],false,none⟩

/-- A setting is for a handle that is not active yet. -/
def Stage.set (s : Stage) (h : PcapHandle) (setting : Setting) : Option Stage :=
  if h ∈ s.active then none else some { s with settings := (h,setting) :: s.settings }

/-- What is set on the other handles. -/
def Stage.settingsBut (s : Stage) (h : PcapHandle) : List (PcapHandle × Setting) := s.settings.filter fun x => x.1 ≠ h

/-- The handle may be activated: all three options are set, and it is not active yet. -/
def Stage.Prepared (s : Stage) (h : PcapHandle) : Prop := h ∉ s.active ∧ ∀ setting, (h,setting) ∈ s.settings

instance (s : Stage) (h : PcapHandle) : Decidable (s.Prepared h) :=
  decidable_of_iff (h ∉ s.active ∧ (h,.snaplen) ∈ s.settings ∧ (h,.promisc) ∈ s.settings ∧ (h,.timeout) ∈ s.settings)
    ⟨fun hs => ⟨hs.1,fun setting => by cases setting <;> simp [hs]⟩,fun hs => ⟨hs.1,hs.2 _,hs.2 _,hs.2 _⟩⟩

/-- The order of the calls on a capture handle; a call out of order is refused. -/
def stageStep (s : Stage) : Exchange Answer → Option Stage
  | ⟨.create _,.ok h⟩ => some { s with settings := s.settingsBut h }
  | ⟨.setSnaplen h snaplen,_⟩ => if snaplen = captureDefaultSnaplen then s.set h .snaplen else none
  | ⟨.setPromisc h promisc,_⟩ => if promisc = 1 then s.set h .promisc else none
  | ⟨.setTimeout h timeout,_⟩ => if timeout = captureTimeoutMs then s.set h .timeout else none
  | ⟨.activate h,result⟩ =>
    if s.Prepared h then some (if result < 0 then s else { s with settings := s.settingsBut h, active := h :: s.active })
    else none
  | ⟨.openOffline _,.ok h⟩ => some { s with active := h :: s.active }
  | ⟨.datalink h,_⟩ => if h ∈ s.active then some s else none
  | ⟨.compile h _,_⟩ => if h ∈ s.active then some s else none
  | ⟨.setfilter h _,_⟩ => if h ∈ s.active then some s else none
  | ⟨.dumpOpen h _,_⟩ => if h ∈ s.active then some s else none
  | ⟨.installSignalHandlers,_⟩ => some { s with installed := true }
  | ⟨.setCaptureHandle (some h),_⟩ =>
    if h ∈ s.active ∧ s.installed ∧ s.published = none then some { s with published := some h } else none
  | ⟨.setCaptureHandle none,_⟩ => some { s with published := none }
  | ⟨.loop h,_⟩ => if s.published = some h then some s else none
  | ⟨.close h,_⟩ =>
    if s.published = some h then none else some { s with settings := s.settingsBut h, active := s.active.erase h }
  | _ => some s

/-- What is held, and the stage of the capture. -/
abbrev Books := List Resource × Stage

abbrev monitor (strict : Bool) : Books → Exchange Answer → Option Books := both (ledgerStep (watched strict)) stageStep

section Rules
variable {strict : Bool} {α β : Type} {c : SystemCall} {p : Prog α} {f : α → Prog β} {post : β → Books → Prop} {s s' : Books}

theorem monitor_eq {x : Exchange Answer} : monitor strict s x = some s' ↔
    ((∀ r ∈ (gives x).toList, r ∈ s.1) ∧ (∀ r ∈ needs x, (strict = true ∨ r ≠ .stdout) → r ∈ s.1) ∧
      (takes x).toList ++ s.1.diff (gives x).toList = s'.1) ∧ stageStep s.2 x = some s'.2 := by
  rw [monitor, both_eq_some, ledgerStep_eq_some]
  simp only [presupposed, watched, List.forall_mem_append, List.mem_filter, decide_eq_true_eq, and_imp, and_assoc]

/-- The program leaves the books as they are. -/
def Keeps (strict : Bool) (p : Prog α) (s : Books) : Prop := Meets (monitor strict) p (fun _ s' => s' = s) s

theorem keeps_pure (a : α) (s : Books) : Keeps strict (pure a) s := rfl

theorem keeps_ask (h : ∀ r, monitor strict s ⟨c,r⟩ = some s) : Keeps strict (ask c) s := fun r => ⟨s,h r,rfl⟩

/-- A call that is about no resource and no handle. -/
theorem keeps_free (s : Books) (heffect : ∀ r, effect ⟨c,r⟩ = ⟨[],none,none⟩)
    (hstage : ∀ stage r, stageStep stage ⟨c,r⟩ = some stage) : Keeps strict (ask c) s := by
  refine keeps_ask fun r => ?_
  obtain ⟨hneeds,hgives,htakes⟩ := Effect.mk.inj (heffect r)
  simp [monitor_eq, hneeds, hgives, htakes, hstage]

theorem Keeps.bind (h : Keeps strict p s) (hf : ∀ a, Meets (monitor strict) (f a) post s) :
    Meets (monitor strict) (p >>= f) post s := by
  refine Meets.bind h ?_
  rintro a _ rfl
  exact hf a

/-- The rule of a call that moves the books on. -/
theorem moves_bind {f : Answer c → Prog β}
    (h : ∀ r, ∃ s', monitor strict s ⟨c,r⟩ = some s' ∧ Meets (monitor strict) (f r) post s') :
    Meets (monitor strict) (ask c >>= f) post s := h

end Rules

/-! ## Logging and printing -/

section Functions
variable {strict : Bool} {held : List Resource} {stage : Stage} {s : Books}

theorem keeps_nsLog (logLevel level : LogLevel) (message : Bytes) (s : Books) :
    Keeps strict (nsLog logLevel level message) s := by
  unfold nsLog
  split
  case isTrue => exact keeps_pure () s
  case isFalse => exact keeps_free s (fun _ => rfl) fun _ _ => rfl

/-- An output stream is open. The standard error is never closed. -/
def Writable (strict : Bool) (stream : Stream) (held : List Resource) : Prop :=
  match stream with
  | .stdout => strict = true → .stdout ∈ held
  | .stderr => True
  | .file f => .file f ∈ held

theorem writable_stdout (h : .stdout ∈ held) : Writable strict .stdout held := fun _ => h

theorem writable_stderr : Writable strict .stderr held := trivial

theorem keeps_fprintf {stream : Stream} (text : Bytes) (h : Writable strict stream s.1) : Keeps strict (fprintf stream text) s := by
  cases stream with
  | stderr => exact keeps_free s (fun _ => rfl) fun _ _ => rfl
  | _ => exact keeps_ask fun _ => by simpa [monitor_eq, needs, gives, takes, stageStep, Writable] using h

/-! ## Opening a capture -/

/-- The handle is open and activated. -/
structure Ready (h : PcapHandle) (s : Books) : Prop where
  open_ : .capture h ∈ s.1
  active : h ∈ s.2.active

theorem keeps_resolveLinkType (logLevel : LogLevel) {h : PcapHandle} (n : ℕ) (hs : Ready h s) :
    Keeps strict (resolveLinkType logLevel h n) s := by
  have hname (dlt : ℕ) : Keeps strict (ask (.datalinkValToName dlt)) s := keeps_free s (fun _ => rfl) fun _ _ => rfl
  refine (keeps_ask fun _ => ?_ : Keeps strict (ask (.datalink h)) s).bind fun dlt => ?_
  · simp [monitor_eq, needs, gives, takes, stageStep, hs.open_, hs.active]
  refine (hname dlt).bind fun name => (keeps_nsLog _ _ _ s).bind fun _ => ?_
  split
  case isTrue => exact (hname dlt).bind fun _ => keeps_pure _ s
  case isFalse => exact keeps_pure _ s

theorem keeps_geterr {h : PcapHandle} (hopen : .capture h ∈ s.1) : Keeps strict (ask (.geterr h)) s :=
  keeps_ask fun _ => by simp [monitor_eq, needs, gives, takes, stageStep, hopen]

/-- The compiled filter is freed on both paths behind the compilation. -/
theorem keeps_applyFilter {h : PcapHandle} (bpfFilter : Bytes) (n : ℕ) (hs : Ready h s) :
    Keeps strict (applyFilter h bpfFilter n) s := by
  unfold applyFilter
  split
  case isTrue => exact keeps_pure _ s
  case isFalse =>
    refine moves_bind fun compiled => ?_
    cases compiled with
    | none =>
      refine ⟨s,by simp [monitor_eq, needs, gives, takes, stageStep, hs.open_, hs.active],?_⟩
      exact (keeps_geterr hs.open_).bind fun _ => keeps_pure _ s
    | some program =>
      refine ⟨(.code program :: s.1,s.2),by simp [monitor_eq, needs, gives, takes, stageStep, hs.open_, hs.active],?_⟩
      refine moves_bind fun result => ⟨(.code program :: s.1,s.2),?_,?_⟩
      · simp [monitor_eq, needs, gives, takes, stageStep, hs.open_, hs.active]
      refine moves_bind fun _ => ⟨s,by simp [monitor_eq, needs, gives, takes, stageStep],?_⟩
      split
      case isTrue => exact (keeps_geterr hs.open_).bind fun _ => keeps_pure _ s
      case isFalse => exact keeps_pure _ s

/-- The books with one open and activated capture. -/
def withCapture (h : PcapHandle) (s : Books) : Books := (.capture h :: s.1,{ s.2 with active := [h] })

theorem ready_withCapture (h : PcapHandle) (s : Books) : Ready h (withCapture h s) := ⟨List.mem_cons_self,List.mem_cons_self⟩

/-- No handle is prepared, activated or published. -/
structure Fresh (s : Books) : Prop where
  settings : s.2.settings = []
  active : s.2.active = []
  published : s.2.published = none

theorem close_withCapture {h : PcapHandle} (hs : Fresh s) : monitor strict (withCapture h s) ⟨.close h,()⟩ = some s := by
  obtain ⟨held,settings,active,installed,published⟩ := s
  obtain ⟨rfl,rfl,rfl⟩ : settings = [] ∧ active = [] ∧ published = none := ⟨hs.settings,hs.active,hs.published⟩
  simp [monitor_eq, needs, gives, takes, stageStep, Stage.settingsBut, withCapture]

/-- An opened capture is held, and a failure leaves nothing behind. -/
def Opens (opened : Except Bytes Capture) (s s' : Books) : Prop :=
  match opened with
  | .error _ => s' = s
  | .ok cap => s' = withCapture cap.handle s ∧ cap.dumper = none

theorem finishOpen_opens (logLevel : LogLevel) (h : PcapHandle) (bpfFilter : Bytes) (n : ℕ) (hs : Fresh s) :
    Meets (monitor strict) (finishOpen logLevel h bpfFilter n) (fun opened s' => Opens opened s s') (withCapture h s) := by
  have hready := ready_withCapture h s
  refine (keeps_resolveLinkType logLevel n hready).bind fun resolved => ?_
  cases resolved with
  | error e => exact moves_bind fun _ => ⟨s,close_withCapture hs,rfl⟩
  | ok linkType =>
    refine (keeps_applyFilter bpfFilter n hready).bind fun applied => ?_
    cases applied with
    | error e => exact moves_bind fun _ => ⟨s,close_withCapture hs,rfl⟩
    | ok _ => exact ⟨rfl,rfl⟩

theorem nsCaptureOpenOffline_opens (logLevel : LogLevel) (path bpfFilter : Bytes) (n : ℕ) (hs : Fresh s) :
    Meets (monitor strict) (nsCaptureOpenOffline logLevel path bpfFilter n) (fun opened s' => Opens opened s s') s := by
  refine moves_bind fun opened => ?_
  cases opened with
  | error e => exact ⟨s,by simp [monitor_eq, needs, gives, takes, stageStep],rfl⟩
  | ok h =>
    refine ⟨withCapture h s,?_,finishOpen_opens logLevel h bpfFilter n hs⟩
    simp [monitor_eq, needs, gives, takes, stageStep, withCapture, hs.active]

theorem keeps_warnActivate (logLevel : LogLevel) (interface : Bytes) (activateResult : ℤ) (s : Books) :
    Keeps strict (warnActivate logLevel interface activateResult) s := by
  unfold warnActivate
  split
  case isTrue =>
    have hstatus : Keeps strict (ask (.statustostr activateResult)) s := keeps_free s (fun _ => rfl) fun _ _ => rfl
    exact hstatus.bind fun _ => keeps_nsLog _ _ _ s
  case isFalse => exact keeps_pure () s

/-- The books with a created capture that is being prepared. -/
def preparing (h : PcapHandle) (settings : List (PcapHandle × Setting)) (s : Books) : Books :=
  (.capture h :: s.1,{ s.2 with settings := settings })

theorem set_preparing (setting : Setting) {c : SystemCall} {h : PcapHandle} (settings : List (PcapHandle × Setting))
    (hs : Fresh s) (heffect : ∀ r, effect ⟨c,r⟩ = ⟨[.capture h],none,none⟩)
    (hstage : ∀ stage r, stageStep stage ⟨c,r⟩ = stage.set h setting) (r : Answer c) :
    monitor strict (preparing h settings s) ⟨c,r⟩ = some (preparing h ((h,setting) :: settings) s) := by
  obtain ⟨hneeds,hgives,htakes⟩ := Effect.mk.inj (heffect r)
  simp [monitor_eq, hneeds, hgives, htakes, hstage, Stage.set, preparing, hs.active]

/-- The three options are set on the new handle before its activation. -/
theorem nsCaptureOpenLive_opens (logLevel : LogLevel) (interface bpfFilter : Bytes) (n : ℕ) (hs : Fresh s) :
    Meets (monitor strict) (nsCaptureOpenLive logLevel interface bpfFilter n) (fun opened s' => Opens opened s s') s := by
  refine moves_bind fun created => ?_
  cases created with
  | error e => exact ⟨s,by simp [monitor_eq, needs, gives, takes, stageStep],rfl⟩
  | ok h =>
    let prepared := preparing h [(h,.timeout),(h,.promisc),(h,.snaplen)] s
    refine ⟨preparing h [] s,?_,?_⟩
    · simp [monitor_eq, needs, gives, takes, stageStep, Stage.settingsBut, preparing, hs.settings]
    refine moves_bind fun r => ⟨_,set_preparing .snaplen _ hs (fun _ => rfl) (fun _ _ => rfl) r,?_⟩
    refine moves_bind fun r => ⟨_,set_preparing .promisc _ hs (fun _ => rfl) (fun _ _ => rfl) r,?_⟩
    refine moves_bind fun r => ⟨_,set_preparing .timeout _ hs (fun _ => rfl) (fun _ _ => rfl) r,?_⟩
    have hopen : .capture h ∈ prepared.1 := List.mem_cons_self
    have hprepared : prepared.2.Prepared h := by
      refine ⟨?_,fun setting => ?_⟩
      · simp [prepared, preparing, hs.active]
      · cases setting <;> simp [prepared, preparing]
    change Meets (monitor strict) _ _ prepared
    refine moves_bind fun activateResult => ?_
    by_cases hfailed : activateResult < 0
    · refine ⟨prepared,by simp [monitor_eq, needs, gives, takes, stageStep, hprepared, hopen, hfailed],?_⟩
      rw [if_pos hfailed]
      refine (keeps_geterr hopen).bind fun _ => moves_bind fun _ => ⟨s,?_,rfl⟩
      obtain ⟨held,settings,active,installed,published⟩ := s
      obtain ⟨rfl,rfl,rfl⟩ : settings = [] ∧ active = [] ∧ published = none := ⟨hs.settings,hs.active,hs.published⟩
      simp [monitor_eq, needs, gives, takes, stageStep, Stage.settingsBut, prepared, preparing]
    · refine ⟨withCapture h s,?_,?_⟩
      · simp [monitor_eq, needs, gives, takes, stageStep, hprepared, hopen, hfailed]
        simp [prepared, preparing, withCapture, Stage.settingsBut, hs.settings, hs.active]
      rw [if_neg hfailed]
      exact (keeps_warnActivate _ _ _ _).bind fun _ => finishOpen_opens logLevel h bpfFilter n hs

/-! ## A running capture -/

/-- A dump to the standard output holds nothing of its own. -/
def dumperResources (cap : Capture) : List Resource :=
  match cap.dumper with
  | some d => if d.path = ascii "-" then [] else [.dumper d]
  | none => []

def streamResources : Stream → List Resource
  | .file f => [.file f]
  | _ => []

/-- The books hold a capture, its dump, what an output stream holds and the standard output,
and nothing else. -/
structure Holds (cap : Capture) (stream : Stream) (s : Books) : Prop where
  held : s.1 = streamResources stream ++ (dumperResources cap ++ [.capture cap.handle,.stdout])
  active : s.2.active = [cap.handle]
  published : s.2.published = none

section Held
variable {cap : Capture} {stream : Stream}

theorem Holds.ready (h : Holds cap stream s) : Ready cap.handle s := by
  refine ⟨?_,by simp [h.active]⟩
  rw [h.held]
  simp

theorem Holds.stdout (h : Holds cap stream s) : .stdout ∈ s.1 := by
  rw [h.held]
  simp

theorem Holds.writable (h : Holds cap stream s) : Writable strict stream s.1 := by
  cases stream with
  | stdout => exact fun _ => h.stdout
  | stderr => trivial
  | file f =>
    rw [Writable, h.held]
    exact List.mem_cons_self

theorem Holds.dumper (h : Holds cap stream s) {d : Dumper} (hd : cap.dumper = some d) : d.resource ∈ s.1 := by
  unfold Dumper.resource
  split
  case isTrue => exact h.stdout
  case isFalse hpath =>
    rw [h.held, dumperResources, hd]
    simp [hpath]

end Held

theorem nsCaptureOpenDump_holds {cap : Capture} (path : Bytes) (n : ℕ) (hs : Holds cap .stdout s) (hdumper : cap.dumper = none) :
    Meets (monitor strict) (nsCaptureOpenDump cap path n) (fun opened s' =>
      match opened with
      | .error _ => s' = s
      | .ok cap' => Holds cap' .stdout s' ∧ dumpsToDash cap' = decide (path = ascii "-")) s := by
  have hready := hs.ready
  refine moves_bind fun opened => ?_
  cases opened with
  | none =>
    refine ⟨s,by simp [monitor_eq, needs, gives, takes, stageStep, hready.open_, hready.active],?_⟩
    exact (keeps_geterr hready.open_).bind fun _ => rfl
  | some d =>
    by_cases hpath : path = ascii "-"
    · refine ⟨s,by simp [monitor_eq, needs, gives, takes, stageStep, hready.open_, hready.active, hpath],?_⟩
      refine ⟨⟨?_,hs.active,hs.published⟩,by simp [dumpsToDash, hpath]⟩
      rw [hs.held]
      simp [dumperResources, hdumper, hpath]
    · refine ⟨(.dumper ⟨d,path⟩ :: s.1,s.2),?_,⟨?_,hs.active,hs.published⟩,by simp [dumpsToDash]⟩
      · simp [monitor_eq, needs, gives, takes, stageStep, hready.open_, hready.active, hpath]
      · simp [hs.held, streamResources, dumperResources, hdumper, hpath]

section Loop
variable {Ctx : Type} {onPacket : Ctx → Packet → Prog Ctx} {good : Ctx → Prop}

theorem keeps_dumpPacket {cap : Capture} (frame : PcapFrame) (hdumper : ∀ d, cap.dumper = some d → d.resource ∈ s.1) :
    Keeps strict (dumpPacket cap frame) s := by
  unfold dumpPacket
  split
  case h_1 d hd => exact keeps_ask fun _ => by simp [monitor_eq, needs, gives, takes, stageStep, hdumper d hd]
  case h_2 => exact keeps_pure () s

/-- The dump is open, and the callback keeps to its own part of the books. -/
theorem pcapLoop_keeps {cap : Capture} (hdumper : ∀ d, cap.dumper = some d → d.resource ∈ s.1)
    (hpacket : ∀ ctx pkt, good ctx → Meets (monitor strict) (onPacket ctx pkt) (fun ctx' s' => s' = s ∧ good ctx') s)
    {ctx : Ctx} (hctx : good ctx) (frames : List PcapFrame) :
    Meets (monitor strict) (pcapLoop onPacket cap ctx frames)
      (fun x s' => s' = s ∧ x.1.handle = cap.handle ∧ x.1.dumper = cap.dumper) s := by
  induction frames generalizing cap ctx with
  | nil => exact ⟨rfl,rfl,rfl⟩
  | cons frame rest ih =>
    have hcallback : Meets (monitor strict) (pcapPacketCallback onPacket cap ctx frame)
        (fun x s' => s' = s ∧ (x.1.handle = cap.handle ∧ x.1.dumper = cap.dumper) ∧ good x.2) s := by
      refine (keeps_dumpPacket frame hdumper).bind fun _ => (hpacket _ _ hctx).bind fun ctx' s' h => ?_
      exact ⟨h.1,⟨rfl,rfl⟩,h.2⟩
    refine hcallback.bind fun x s' h => ?_
    obtain ⟨rfl,⟨hhandle,hdump⟩,hgood⟩ := h
    refine (ih (fun d hd => hdumper d (hdump ▸ hd)) hgood).mono fun y s'' h => ?_
    exact ⟨h.1,h.2.1.trans hhandle,h.2.2.trans hdump⟩

/-- While the loop runs the handler knows the handle, and before and after it does not. -/
theorem nsCaptureRun_keeps {cap : Capture} {stream : Stream} (hs : Holds cap stream s) (hinstalled : s.2.installed = true)
    (hpacket : ∀ (s' : Books) ctx pkt, s'.1 = s.1 → good ctx →
      Meets (monitor strict) (onPacket ctx pkt) (fun ctx' s'' => s'' = s' ∧ good ctx') s')
    {ctx : Ctx} (hctx : good ctx) (n : ℕ) :
    Meets (monitor strict) (nsCaptureRun onPacket cap ctx n)
      (fun x s' => s' = s ∧ x.2.1.handle = cap.handle ∧ x.2.1.dumper = cap.dumper) s := by
  have hready := hs.ready
  let running : Books := (s.1,{ s.2 with published := some cap.handle })
  refine moves_bind fun _ => ⟨running,?_,?_⟩
  · simp [monitor_eq, needs, gives, takes, stageStep, hready.open_, hready.active, hinstalled, hs.published, running]
  refine (keeps_ask fun _ => ?_ : Keeps strict (ask (.loop cap.handle)) running).bind fun answer => ?_
  · simp [monitor_eq, needs, gives, takes, stageStep, hready.open_, running]
  refine (pcapLoop_keeps (s := running) (fun _ => hs.dumper) (fun ctx pkt => hpacket running ctx pkt rfl) hctx
    answer.1).bind fun x s' h => ?_
  obtain ⟨rfl,hhandle,hdump⟩ := h
  refine moves_bind fun _ => ⟨s,?_,?_⟩
  · obtain ⟨held,settings,active,installed,published⟩ := s
    obtain rfl : published = none := hs.published
    simp [monitor_eq, needs, gives, takes, stageStep, running]
  split
  case isTrue => exact (keeps_geterr (hhandle ▸ hready.open_)).bind fun _ => ⟨rfl,hhandle,hdump⟩
  case isFalse => exact ⟨rfl,hhandle,hdump⟩

end Loop

/-- The standard output, unless the dump has been on it. -/
def remaining (cap : Capture) : List Resource := if dumpsToDash cap then [] else [.stdout]

theorem notMem_streamResources (stream : Stream) {r : Resource} (h : ∀ f, r ≠ .file f) : r ∉ streamResources stream := by
  cases stream with
  | file f => simpa [streamResources] using h f
  | _ => exact List.not_mem_nil

/-- What is left is the output file, if there is one, and the standard output. -/
theorem nsCaptureClose_leaves {cap : Capture} {stream : Stream} (hs : Holds cap stream s) :
    Meets (monitor strict) (nsCaptureClose cap)
      (fun _ s' => s'.1 = streamResources stream ++ remaining cap ∧ s'.2.published = none) s := by
  obtain ⟨held,stage⟩ := s
  obtain ⟨hheld,hactive,hpublished⟩ := hs
  obtain rfl : held = streamResources stream ++ (dumperResources cap ++ [.capture cap.handle,.stdout]) := hheld
  have hcapture := @notMem_streamResources stream (.capture cap.handle) nofun
  have hcloseDump : Meets (monitor strict) (closeDump cap)
      (fun _ s' => s' = (streamResources stream ++ .capture cap.handle :: remaining cap,stage))
      (streamResources stream ++ (dumperResources cap ++ [.capture cap.handle,.stdout]),stage) := by
    unfold closeDump
    split
    case h_1 d hd =>
      refine fun _ => ⟨_,?_,rfl⟩
      by_cases hpath : d.path = ascii "-"
      · have hstdout := @notMem_streamResources stream .stdout nofun
        simp [monitor_eq, needs, gives, takes, stageStep, dumperResources, remaining, dumpsToDash, Dumper.resource, hd, hpath,
          List.erase_append_right _ hstdout]
      · have hdumper := @notMem_streamResources stream (.dumper d) nofun
        simp [monitor_eq, needs, gives, takes, stageStep, dumperResources, remaining, dumpsToDash, Dumper.resource, hd, hpath,
          List.erase_append_right _ hdumper]
    case h_2 hd =>
      simp only [dumperResources, remaining, dumpsToDash, hd]
      rfl
  refine hcloseDump.bind fun _ s' hs' => fun _ =>
    ⟨(streamResources stream ++ remaining cap,{ stage with
      settings := stage.settingsBut cap.handle, active := stage.active.erase cap.handle }),?_,rfl,hpublished⟩
  subst hs'
  simp only [] at hpublished
  simp [monitor_eq, needs, gives, takes, stageStep, hpublished, List.erase_append_right _ hcapture]

/-! ## `main` -/

/-- Nothing but the standard output is open, and the handler knows of no handle. -/
def Settled (s : Books) : Prop := (∀ r ∈ s.1, r = .stdout) ∧ s.2.published = none

theorem settled_remaining (cap : Capture) (h : s.1 = remaining cap) (hpublished : s.2.published = none) : Settled s := by
  refine ⟨fun r hr => ?_,hpublished⟩
  rw [h, remaining] at hr
  split at hr
  case isTrue => cases hr
  case isFalse => exact List.mem_singleton.mp hr

/-- A report is asked for behind a dump to the standard output. -/
def ReportsBehindDump (config : Config) : Prop :=
  dumpsToStdout config = true ∧ (config.showStats = true ∨ config.inputMode = .live)

section Main
variable (rt : Runtime)

theorem keeps_stop {message : Bytes} : Keeps strict (stop message) s := (keeps_fprintf _ writable_stderr).bind fun _ => keeps_pure 1 s

theorem keeps_nsOutputShouldUseColor (noColor : Bool) {stream : Stream} (h : Writable strict stream s.1) :
    Keeps strict (nsOutputShouldUseColor noColor stream) s := by
  unfold nsOutputShouldUseColor
  split
  case isTrue => exact keeps_pure _ s
  case isFalse =>
    cases stream with
    | stderr => exact keeps_free s (fun _ => rfl) fun _ _ => rfl
    | _ => exact keeps_ask fun _ => by simpa [monitor_eq, needs, gives, takes, stageStep, Writable] using h

/-- The callback of `main` writes to its stream and keeps to it. -/
theorem handlePacket_keeps {stream : Stream} (ctx : MainCtx) (pkt : Packet) (hstream : Writable strict stream s.1)
    (hctx : ctx.out = stream) :
    Meets (monitor strict) (handlePacket rt ctx pkt) (fun ctx' s' => s' = s ∧ ctx'.out = stream) s := by
  subst hctx
  exact (keeps_fprintf _ hstream).bind fun _ => ⟨rfl,rfl⟩

theorem keeps_printBanner (config : Config) (hstdout : .stdout ∈ s.1) : Keeps strict (printBanner config) s := by
  unfold printBanner
  split
  case isTrue => exact keeps_fprintf _ (writable_stdout hstdout)
  case isFalse => exact keeps_pure () s

/-- The report needs the standard output. -/
theorem keeps_printStats (config : Config) (stats : Stats) (duration : Bytes)
    (h : strict = true → config.showStats = true ∨ config.inputMode = .live → .stdout ∈ s.1) :
    Keeps strict (printStats rt config stats duration) s := by
  unfold printStats
  split
  case isTrue hstats => exact keeps_fprintf _ fun hstrict => h hstrict hstats
  case isFalse => exact keeps_pure () s

theorem closeOutput_leaves {stream : Stream} {rest : List Resource} (hheld : s.1 = streamResources stream ++ rest) :
    Meets (monitor strict) (closeOutput stream) (fun _ s' => s' = (rest,s.2)) s := by
  cases stream with
  | file f =>
    refine fun _ => ⟨(rest,s.2),?_,rfl⟩
    simp [monitor_eq, needs, gives, takes, stageStep, hheld, streamResources]
  | _ =>
    obtain rfl : s.1 = rest := hheld
    exact rfl

theorem capture_settles (config : Config) {cap : Capture} {stream : Stream} (hs : Holds cap stream s)
    (hreport : strict = true → config.showStats = true ∨ config.inputMode = .live → dumpsToDash cap = false) :
    Meets (monitor strict) (capture rt config cap stream) (fun _ => Settled) s := by
  let started : Books := (s.1,{ s.2 with installed := true })
  have hstarted : Holds cap stream started := ⟨hs.held,hs.active,hs.published⟩
  have hclock (s' : Books) : Keeps strict (ask .clockGettime) s' := keeps_free s' (fun _ => rfl) fun _ _ => rfl
  refine (keeps_nsOutputShouldUseColor config.noColor hs.writable).bind fun color => ?_
  refine (keeps_printBanner config hs.stdout).bind fun _ => moves_bind fun _ => ⟨started,?_,?_⟩
  · simp [monitor_eq, needs, gives, takes, stageStep, started]
  refine (hclock started).bind fun startTime => ?_
  have hpacket (s' : Books) (ctx : MainCtx) (pkt : Packet) (hs' : s'.1 = started.1) :=
    @handlePacket_keeps strict s' rt stream ctx pkt (hs' ▸ hstarted.writable)
  refine (nsCaptureRun_keeps hstarted rfl hpacket rfl errLen).bind fun x s' h => ?_
  obtain ⟨rfl,hhandle,hdumper⟩ := h
  have hx : Holds x.2.1 stream started := by
    refine ⟨?_,by rw [hhandle, hstarted.active],hs.published⟩
    rw [hstarted.held, dumperResources, dumperResources, hhandle, hdumper]
  have hdash : dumpsToDash x.2.1 = dumpsToDash cap := by rw [dumpsToDash, dumpsToDash, hdumper]
  refine (hclock started).bind fun endTime => (nsCaptureClose_leaves hx).bind fun _ s' h => ?_
  refine (closeOutput_leaves h.1).bind fun _ s'' hs'' => ?_
  have hsettled : Settled s'' := settled_remaining x.2.1 (by rw [hs'']) (by rw [hs'']; exact h.2)
  cases x.1 with
  | error e => exact keeps_stop.mono fun _ _ h => h ▸ hsettled
  | ok _ =>
    refine (keeps_printStats rt config _ _ fun hstrict hstats => ?_).bind fun _ => hsettled
    rw [hs'', remaining, hdash, hreport hstrict hstats]
    exact List.mem_singleton_self _

/-- An output that cannot be opened: the message, and the capture is closed. -/
theorem giveUp_settles (message : Bytes) {cap : Capture} (hs : Holds cap .stdout s) :
    Meets (monitor strict) (fprintf .stderr (printError message) >>= fun _ => nsCaptureClose cap >>= fun _ => pure 1)
      (fun _ : ℕ => Settled) s :=
  (keeps_fprintf _ writable_stderr).bind fun _ => (nsCaptureClose_leaves hs).bind fun _ _ h => settled_remaining cap h.1 h.2

theorem openOutput_settles (config : Config) {cap : Capture} (hs : Holds cap .stdout s)
    (hreport : strict = true → config.showStats = true ∨ config.inputMode = .live → dumpsToDash cap = false) :
    Meets (monitor strict) (openOutput rt config cap) (fun _ => Settled) s := by
  unfold openOutput
  split
  case isTrue =>
    refine moves_bind fun opened => ?_
    cases opened with
    | none => exact ⟨s,by simp [monitor_eq, needs, gives, takes, stageStep],giveUp_settles _ hs⟩
    | some f =>
      refine ⟨(.file f :: s.1,s.2),by simp [monitor_eq, needs, gives, takes, stageStep],?_⟩
      exact capture_settles rt config ⟨congrArg (List.cons _) hs.held,hs.active,hs.published⟩ hreport
  case isFalse => exact capture_settles rt config hs hreport

/-- The books before anything is opened. -/
def Books.start : Books := ([.stdout],.start)

theorem fresh_start : Fresh .start := ⟨rfl,rfl,rfl⟩

theorem settled_start : Settled .start := ⟨fun _ => List.mem_singleton.mp,rfl⟩

theorem openCapture_settles (config : Config) (bpfExpr : Bytes) (hreport : strict = true → ¬ReportsBehindDump config) :
    Meets (monitor strict) (openCapture rt config bpfExpr) (fun _ => Settled) .start := by
  have hopened : Meets (monitor strict) (if config.inputMode = .live then
      nsCaptureOpenLive config.logLevel config.interface.bytes bpfExpr errLen
      else nsCaptureOpenOffline config.logLevel config.readFile.bytes bpfExpr errLen)
      (fun opened s' => Opens opened .start s') .start := by
    split
    case isTrue => exact nsCaptureOpenLive_opens _ _ _ _ fresh_start
    case isFalse => exact nsCaptureOpenOffline_opens _ _ _ _ fresh_start
  refine hopened.bind fun opened s h => ?_
  cases opened with
  | error e =>
    obtain rfl : s = .start := h
    exact keeps_stop.mono fun _ _ h => h ▸ settled_start
  | ok cap =>
    obtain ⟨rfl,hdumper⟩ := h
    have hcap : Holds cap .stdout (withCapture cap.handle .start) := by
      refine ⟨?_,rfl,rfl⟩
      simp [withCapture, Books.start, streamResources, dumperResources, hdumper]
    dsimp only
    split
    case isTrue =>
      refine (nsCaptureOpenDump_holds _ _ hcap hdumper).bind fun opened s h => ?_
      cases opened with
      | error e =>
        obtain rfl : s = _ := h
        exact giveUp_settles e hcap
      | ok cap' =>
        refine openOutput_settles rt config h.1 fun hstrict hstats => ?_
        rw [h.2]
        exact Bool.eq_false_iff.mpr fun hto => hreport hstrict ⟨hto,hstats⟩
    case isFalse => exact openOutput_settles rt config hcap fun _ _ => by simp [dumpsToDash, hdumper]

theorem keeps_readDevice {devices : List Device} (hheld : .devices devices ∈ s.1) (index : ℕ) :
    Keeps strict (ask (.readDevice devices index)) s :=
  keeps_ask fun _ => by simp [monitor_eq, needs, gives, takes, stageStep, hheld]

theorem keeps_printDevices {all : List Device} (hheld : .devices all ∈ s.1) (hstdout : .stdout ∈ s.1)
    (devices : List (ℕ × Device)) : Keeps strict (printDevices .stdout all devices) s := by
  induction devices with
  | nil => exact keeps_pure () s
  | cons x rest ih => exact (keeps_readDevice hheld _).bind fun _ => (keeps_fprintf _ (writable_stdout hstdout)).bind fun _ => ih

/-- A list that is not null is freed, and only behind its last use. -/
theorem keeps_nsCaptureListInterfaces (hstdout : .stdout ∈ s.1) : Keeps strict (nsCaptureListInterfaces .stdout) s := by
  refine moves_bind fun found => ?_
  match found with
  | .error e => exact ⟨s,by simp [monitor_eq, needs, gives, takes, stageStep],rfl⟩
  | .ok [] =>
    refine ⟨s,by simp [monitor_eq, needs, gives, takes, stageStep],?_⟩
    exact (keeps_fprintf _ (writable_stdout hstdout)).bind fun _ => rfl
  | .ok (dev :: rest) =>
    let listing : Books := (.devices (dev :: rest) :: s.1,s.2)
    have hheld : .devices (dev :: rest) ∈ listing.1 := List.mem_cons_self
    have hout : .stdout ∈ listing.1 := List.mem_cons_of_mem _ hstdout
    refine ⟨listing,by simp [monitor_eq, needs, gives, takes, stageStep, listing],?_⟩
    refine (keeps_fprintf _ (writable_stdout hout)).bind fun _ => (keeps_printDevices hheld hout _).bind fun _ =>
      moves_bind fun _ => ⟨s,?_,rfl⟩
    simp [monitor_eq, needs, gives, takes, stageStep, listing]

theorem keeps_findDevice {all : List Device} (name : Bytes) (devices : List (ℕ × Device))
    (hheld : devices ≠ [] → .devices all ∈ s.1) : Keeps strict (findDevice name all devices) s := by
  induction devices with
  | nil => exact keeps_pure _ s
  | cons x rest ih =>
    have hall := hheld (List.cons_ne_nil _ _)
    refine (keeps_readDevice hall _).bind fun _ => ?_
    split
    case isTrue => exact keeps_pure _ s
    case isFalse => exact ih fun _ => hall

theorem keeps_nsCaptureInterfaceExists (name : Bytes) (s : Books) : Keeps strict (nsCaptureInterfaceExists name) s := by
  refine moves_bind fun found => ?_
  match found with
  | .error e => exact ⟨s,by simp [monitor_eq, needs, gives, takes, stageStep],rfl⟩
  | .ok [] =>
    refine ⟨s,by simp [monitor_eq, needs, gives, takes, stageStep],?_⟩
    refine (keeps_findDevice name [] nofun).bind fun _ => moves_bind fun _ => ⟨s,?_,rfl⟩
    simp [monitor_eq, needs, gives, takes, stageStep]
  | .ok (dev :: rest) =>
    let searching : Books := (.devices (dev :: rest) :: s.1,s.2)
    refine ⟨searching,by simp [monitor_eq, needs, gives, takes, stageStep, searching],?_⟩
    refine (keeps_findDevice name _ fun _ => List.mem_cons_self).bind fun _ => moves_bind fun _ => ⟨s,?_,rfl⟩
    simp [monitor_eq, needs, gives, takes, stageStep, searching]

theorem filterAndCapture_settles (config : Config) (hreport : strict = true → ¬ReportsBehindDump config) :
    Meets (monitor strict) (filterAndCapture rt config) (fun _ => Settled) .start := by
  unfold filterAndCapture
  split
  case h_1 => exact settled_start
  case h_2 => exact keeps_stop.bind fun _ => settled_start
  case h_3 expr _ => exact (openCapture_settles rt config expr hreport).bind fun _ _ h => h

theorem main_settles (args : CommandLine)
    (hreport : strict = true → ∀ config, nsConfigParse args errLen = .ok config → ¬ReportsBehindDump config) :
    Meets (monitor strict) (main rt args) (fun _ => Settled) .start := by
  have hstdout : .stdout ∈ Books.start.1 := List.mem_singleton_self _
  have hprint (text : Bytes) : Keeps strict (fprintf .stdout text) .start := keeps_fprintf text (writable_stdout hstdout)
  have hmessage (text : Bytes) : Keeps strict (fprintf .stderr text) .start := keeps_fprintf text writable_stderr
  have hstop (message : Bytes) : Meets (monitor strict) (Except.ok <$> stop message : Prog (Exec ℕ)) (fun _ => Settled) .start :=
    keeps_stop.bind fun _ => settled_start
  unfold main
  split
  case h_1 => exact (hmessage _).bind fun _ => (hmessage _).bind fun _ => settled_start
  case h_2 config hconfig =>
    have hconfig' := fun hstrict => hreport hstrict config hconfig
    unfold runConfig
    split_ifs
    · exact (hprint _).bind fun _ => settled_start
    · exact (hprint _).bind fun _ => settled_start
    · refine (keeps_nsCaptureListInterfaces hstdout).bind fun listed => ?_
      cases listed with
      | error e => exact hstop e
      | ok _ => exact settled_start
    · refine (keeps_nsCaptureInterfaceExists _ .start).bind fun found => ?_
      cases found with
      | true => exact filterAndCapture_settles rt config hconfig'
      | false => exact hstop _
    · exact filterAndCapture_settles rt config hconfig'

end Main

end Functions

/-! ## A recording and a live capture -/

section Examples
open TerminalOutput JsonStream StoredArguments FilterExpression

/-- `netscope -r capture.pcap --write dump.pcap --format json --output packets.json --stats` -/
def recordingRun : CommandLine :=
  ⟨[.read capturePath,.write ⟨ascii "dump.pcap",by decide⟩,jsonFormat,.output ⟨ascii "packets.json",by decide⟩,.stats],none⟩

def recordingConfig : Config :=
  { initialState.out with
    inputMode := .file, readFile := capturePath, writeFile := ⟨ascii "dump.pcap",by decide⟩, format := .json
    outputFile := ⟨ascii "packets.json",by decide⟩, showStats := true }

theorem recordingRun_accepted : nsConfigParse recordingRun errLen = .ok recordingConfig := by decide +kernel

/-- `netscope -i en0` -/
def watchingRun : CommandLine := ⟨[.interface liveInterface],none⟩

def watchingConfig : Config := { initialState.out with inputMode := .live, interface := liveInterface }

theorem watchingRun_accepted : nsConfigParse watchingRun errLen = .ok watchingConfig := by decide +kernel

def firstFrame : PcapFrame := ⟨(queryFor (.replicate 5 104)).data,65,⟨0,0⟩⟩
def secondFrame : PcapFrame := ⟨(queryFor (.replicate 5 97)).data,65,⟨1,0⟩⟩

def firstPacket : Packet := Netscope.pcapPacketCallback .ethernet 0 firstFrame
def secondPacket : Packet := Netscope.pcapPacketCallback .ethernet 1 secondFrame

def exampleRuntime : Runtime := ⟨noon,oneQuery.lib,fun _ _ => ascii "1.00"⟩

/-- The report on the two packets. -/
def exampleReport : Bytes :=
  nsStatsPrint oneQuery.lib (nsStatsUpdate (nsStatsUpdate nsStatsInit firstPacket) secondPacket) (ascii "1.00")

def recordingDump : Dumper := ⟨2,ascii "dump.pcap"⟩

def recordingText (pkt : Packet) : Bytes := nsOutputPacket noon pkt ⟨false,false,false,false,.json⟩

/-- A recording that is broken off behind its second packet. -/
def recordingHistory : List (Exchange Answer) :=
  [⟨.openOffline (ascii "capture.pcap"),.ok 1⟩,⟨.datalink 1,dltEn10mb⟩,⟨.datalinkValToName dltEn10mb,some (ascii "EN10MB")⟩,
    ⟨.dumpOpen 1 (ascii "dump.pcap"),some 2⟩,⟨.fopen (ascii "packets.json"),some 3⟩,⟨.isatty (.file 3),false⟩,
    ⟨.installSignalHandlers,()⟩,⟨.clockGettime,⟨5,0⟩⟩,⟨.setCaptureHandle (some 1),()⟩,
    ⟨.loop 1,([firstFrame,secondFrame],-2)⟩,⟨.dump recordingDump firstFrame,()⟩,
    ⟨.write (.file 3) (recordingText firstPacket),()⟩,⟨.dump recordingDump secondFrame,()⟩,
    ⟨.write (.file 3) (recordingText secondPacket),()⟩,⟨.setCaptureHandle none,()⟩,⟨.clockGettime,⟨6,0⟩⟩,
    ⟨.dumpClose recordingDump,()⟩,⟨.close 1,()⟩,⟨.fclose 3,()⟩,⟨.write .stdout exampleReport,()⟩]

def en0 : Device := ⟨ascii "en0",none,[]⟩

def watchingText (pkt : Packet) : Bytes := nsOutputPacket noon pkt ⟨true,false,false,false,.text⟩

/-- A live capture whose activation warns, on a terminal, up to its end. -/
def watchingHistory : List (Exchange Answer) :=
  [⟨.findalldevs,.ok [en0]⟩,⟨.readDevice [en0] 0,()⟩,⟨.freealldevs [en0],()⟩,⟨.create (ascii "en0"),.ok 1⟩,
    ⟨.setSnaplen 1 captureDefaultSnaplen,()⟩,⟨.setPromisc 1 1,()⟩,⟨.setTimeout 1 captureTimeoutMs,()⟩,⟨.activate 1,(1 : ℤ)⟩,
    ⟨.statustostr 1,ascii "generic warning"⟩,
    ⟨.log (ascii "[WARN] pcap_activate warning on 'en0': generic warning" ++ [newline]),()⟩,
    ⟨.datalink 1,dltEn10mb⟩,⟨.datalinkValToName dltEn10mb,some (ascii "EN10MB")⟩,⟨.isatty .stdout,true⟩,
    ⟨.write .stdout (banner watchingConfig),()⟩,⟨.installSignalHandlers,()⟩,⟨.clockGettime,⟨5,0⟩⟩,
    ⟨.setCaptureHandle (some 1),()⟩,⟨.loop 1,([firstFrame,secondFrame],-2)⟩,
    ⟨.write .stdout (watchingText firstPacket),()⟩,⟨.write .stdout (watchingText secondPacket),()⟩,
    ⟨.setCaptureHandle none,()⟩,⟨.clockGettime,⟨6,0⟩⟩,⟨.close 1,()⟩,⟨.write .stdout exampleReport,()⟩]

theorem recordingHistory_runs : Runs (main exampleRuntime recordingRun) recordingHistory (.ok 0) := by
  have hwritten : writtenExpression (filterSpec recordingConfig) = [] := by decide +kernel
  have hbuilt : builtFilter recordingConfig = .ok (some []) := by
    rw [builtFilter_eq, hwritten]
    rfl
  have hmain : main exampleRuntime recordingRun = Except.ok <$> openCapture exampleRuntime recordingConfig [] := by
    rw [main, recordingRun_accepted]
    change filterAndCapture exampleRuntime recordingConfig = _
    rw [filterAndCapture, hbuilt]
  have hcapture : Runs (openCapture exampleRuntime recordingConfig []) recordingHistory 0 := by
    -- One line for the opening, one up to the loop, one for the packets and one behind them.
    refine .of_eq rfl (.of_eq rfl (.of_eq rfl (.of_eq rfl (.of_eq rfl (.of_eq rfl ?_)))))
    refine .of_eq rfl (.of_eq rfl (.of_eq rfl (.of_eq rfl ?_)))
    refine .of_eq rfl (.of_eq rfl (.of_eq rfl (.of_eq rfl ?_)))
    exact .of_eq rfl (.of_eq rfl (.of_eq rfl (.of_eq rfl (.of_eq rfl (.of_eq rfl (.done 0))))))
  rw [hmain]
  exact runs_bind.mpr ⟨recordingHistory,[],0,by simp,hcapture,.done _⟩

theorem watchingHistory_runs : Runs (main exampleRuntime watchingRun) watchingHistory (.ok 0) := by
  have hwritten : writtenExpression (filterSpec watchingConfig) = [] := by decide +kernel
  have hbuilt : builtFilter watchingConfig = .ok (some []) := by
    rw [builtFilter_eq, hwritten]
    rfl
  have hfilter : filterAndCapture exampleRuntime watchingConfig = Except.ok <$> openCapture exampleRuntime watchingConfig [] := by
    rw [filterAndCapture, hbuilt]
  have hmain : main exampleRuntime watchingRun = nsCaptureInterfaceExists (ascii "en0") >>= fun found =>
      if found then Except.ok <$> openCapture exampleRuntime watchingConfig []
      else .ok <$> stop (snprintf 512 (ascii "interface '" ++ ascii "en0" ++ ascii "' does not exist")) := by
    rw [main, watchingRun_accepted, ← hfilter]
    rfl
  have hexists : Runs (nsCaptureInterfaceExists (ascii "en0")) (watchingHistory.take 3) true :=
    .of_eq rfl (.of_eq rfl (.of_eq rfl (.done true)))
  have hcapture : Runs (openCapture exampleRuntime watchingConfig []) (watchingHistory.drop 3) 0 := by
    -- The opening, the warning and the link type, up to the loop, the packets, and behind them.
    refine .of_eq rfl (.of_eq rfl (.of_eq rfl (.of_eq rfl (.of_eq rfl ?_))))
    refine .of_eq rfl (.of_eq rfl (.of_eq rfl (.of_eq rfl ?_)))
    refine .of_eq rfl (.of_eq rfl (.of_eq rfl (.of_eq rfl (.of_eq rfl (.of_eq rfl ?_)))))
    refine .of_eq rfl (.of_eq rfl ?_)
    exact .of_eq rfl (.of_eq rfl (.of_eq rfl (.of_eq rfl (.done 0))))
  rw [hmain]
  refine runs_bind.mpr ⟨_,_,true,(List.take_append_drop 3 watchingHistory).symm,hexists,?_⟩
  exact runs_bind.mpr ⟨_,[],0,(List.append_nil _).symm,hcapture,.done _⟩

end Examples

/-! ## Resources over whole runs -/

section Runs
variable {rt : Runtime} {args : CommandLine} {history seen : List (Exchange Answer)} {result : Exec ℕ}

theorem presupposed_watched {strict : Bool} {x : Exchange Answer} {r : Resource} (hr : r ∈ presupposed effect x)
    (h : strict = true ∨ r ≠ .stdout) : r ∈ presupposed (watched strict) x := by
  rcases List.mem_append.mp hr with hr | hr
  · exact List.mem_append_left _ hr
  · exact List.mem_append_right _ (List.mem_filter.mpr ⟨hr,decide_eq_true h⟩)

/-- No call opens the standard output. -/
theorem taken_stdout (history : List (Exchange Answer)) : taken effect history .stdout = 0 := by
  refine List.countP_eq_zero.mpr fun x _ => ?_
  have htakes : takes x ≠ some .stdout := by
    unfold takes
    split <;> simp
  simp [effect, htakes]

/-- Whatever its calls answer, the program takes each resource before every use of it, never
uses it once it is given back, and gives back every resource as often as it took it. The
standard output is open from the start; a dump to it closes it, and nothing is written to it
behind that unless a report is asked for as well. -/
theorem resources_given_back (h : Runs (main rt args) history result) :
    (∀ r, r ≠ .stdout → taken effect history r = given effect history r) ∧
      (∀ seen x rest, history = seen ++ x :: rest → ∀ r ∈ presupposed effect x, r ≠ .stdout →
        given effect seen r < taken effect seen r) ∧
      ((∀ config, nsConfigParse args errLen = .ok config → ¬ReportsBehindDump config) →
        ∀ seen x rest, history = seen ++ x :: rest → .stdout ∈ presupposed effect x → given effect seen .stdout = 0) := by
  obtain ⟨s,hrun,hheld,-⟩ := (main_settles rt args fun h : false = true => nomatch h).follow h
  have hledger := (run_both hrun).1
  have hstart {r : Resource} (hr : r ≠ .stdout) : [Resource.stdout].count r = 0 := List.count_eq_zero.mpr (by simpa using hr)
  refine ⟨fun r hr => ?_,?_,?_⟩
  · have hcount : [Resource.stdout].count r + taken effect history r = s.1.count r + given effect history r :=
      held_add_taken hledger r
    have hleft : s.1.count r = 0 := List.count_eq_zero.mpr fun hmem => hr (hheld r hmem)
    rw [hstart hr] at hcount
    omega
  · rintro seen x rest rfl r hr hne
    have hlt := given_lt hledger (presupposed_watched hr (.inr hne))
    rw [hstart hne, Nat.zero_add] at hlt
    exact hlt
  · rintro hreport seen x rest rfl hr
    obtain ⟨s',hrun',-⟩ := (main_settles rt args fun _ : true = true => hreport).follow h
    have hlt : given effect seen .stdout < 1 + taken effect seen .stdout :=
      given_lt (run_both hrun').1 (presupposed_watched hr (.inl rfl))
    rw [taken_stdout] at hlt
    omega

theorem recordingRun_reports : ∀ config, nsConfigParse recordingRun errLen = .ok config → ¬ReportsBehindDump config := by
  intro config h
  obtain rfl := Except.ok.inj (recordingRun_accepted.symm.trans h)
  exact fun hreport => absurd hreport.1 (by decide)

theorem recording_gives_back : Runs (main exampleRuntime recordingRun) recordingHistory (.ok 0) ∧
    taken effect recordingHistory (.dumper recordingDump) = 1 ∧ given effect recordingHistory (.dumper recordingDump) = 1 ∧
    ∀ seen x rest, recordingHistory = seen ++ x :: rest → .stdout ∈ presupposed effect x → given effect seen .stdout = 0 := by
  obtain ⟨hbalance,-,hstdout⟩ := resources_given_back recordingHistory_runs
  have htaken : taken effect recordingHistory (.dumper recordingDump) = 1 := by decide +kernel
  have hgiven := hbalance (.dumper recordingDump) (by simp)
  exact ⟨recordingHistory_runs,htaken,hgiven ▸ htaken,hstdout recordingRun_reports⟩

/-! ## The order of the calls -/

/-- The call that sets an option. -/
def Setting.exchange (h : PcapHandle) : Setting → Exchange Answer
  | .snaplen => ⟨.setSnaplen h captureDefaultSnaplen,()⟩
  | .promisc => ⟨.setPromisc h 1,()⟩
  | .timeout => ⟨.setTimeout h captureTimeoutMs,()⟩

/-- The handle is one of an opened file, or it has been activated. -/
def Activated (seen : List (Exchange Answer)) (p : PcapHandle) : Prop :=
  (∃ path, ⟨.openOffline path,.ok p⟩ ∈ seen) ∨ ∃ result : ℤ, 0 ≤ result ∧ ⟨.activate p,result⟩ ∈ seen

/-- The handle whose packets, link type or filter a call is about. -/
def needsActive : SystemCall → Option PcapHandle
  | .datalink p => some p
  | .compile p _ => some p
  | .setfilter p _ => some p
  | .dumpOpen p _ => some p
  | .loop p => some p
  | _ => none

section Steps
variable {s s' : Stage} {x : Exchange Answer}

theorem Activated.later {p : PcapHandle} (x : Exchange Answer) (h : Activated seen p) : Activated (seen ++ [x]) p := by
  rcases h with ⟨path,h⟩ | ⟨result,hpos,h⟩
  · exact .inl ⟨path,List.mem_append_left _ h⟩
  · exact .inr ⟨result,hpos,List.mem_append_left _ h⟩

/-- What a call that is not refused does: it sets an option, opens or activates a handle, and
publishes an activated handle, withdraws the published one or spares it. -/
structure Moves (s : Stage) (x : Exchange Answer) (s' : Stage) : Prop where
  settings : ∀ p setting, (p,setting) ∈ s'.settings → (p,setting) ∈ s.settings ∨ x = setting.exchange p
  active : ∀ p ∈ s'.active, p ∈ s.active ∨ Activated [x] p
  published : (∃ p, x = ⟨.setCaptureHandle (some p),()⟩ ∧ p ∈ s'.active ∧ s'.published = some p) ∨ s'.published = none ∨
    (s'.published = s.published ∧ ∀ p, s.published = some p → x.call ≠ .close p ∧ (p ∈ s.active → p ∈ s'.active))

/-- A call that at most forgets settings. -/
theorem moves_spared (hsettings : s'.settings ⊆ s.settings) (hactive : s'.active = s.active)
    (hpublished : s'.published = s.published) (hclose : ∀ p, x.call ≠ .close p) : Moves s x s' where
  settings _ _ hmem := .inl (hsettings hmem)
  active _ hmem := .inl (hactive ▸ hmem)
  published := .inr (.inr ⟨hpublished,fun p _ => ⟨hclose p,fun hp => hactive ▸ hp⟩⟩)

theorem moves_set {p : PcapHandle} {setting : Setting} (hx : x = setting.exchange p) (h : s.set p setting = some s') :
    Moves s x s' := by
  obtain ⟨-,rfl⟩ : p ∉ s.active ∧ _ = s' := by simpa [Stage.set] using h
  subst hx
  refine ⟨fun q setting' hmem => ?_,fun q hmem => .inl hmem,.inr (.inr ⟨rfl,fun q _ => ⟨?_,id⟩⟩)⟩
  · rcases List.mem_cons.mp hmem with heq | hmem
    · obtain ⟨rfl,rfl⟩ := Prod.mk.inj heq
      exact .inr rfl
    · exact .inl hmem
  · cases setting <;> exact nofun

theorem settingsBut_subset (s : Stage) (p : PcapHandle) : s.settingsBut p ⊆ s.settings := List.filter_subset_self _

theorem stageStep_moves (h : stageStep s x = some s') : Moves s x s' := by
  obtain ⟨call,answer⟩ := x
  cases call with
  | setSnaplen q n =>
    obtain ⟨rfl,h⟩ : n = captureDefaultSnaplen ∧ s.set q .snaplen = some s' := by simpa [stageStep] using h
    exact moves_set rfl h
  | setPromisc q n =>
    obtain ⟨rfl,h⟩ : n = 1 ∧ s.set q .promisc = some s' := by simpa [stageStep] using h
    exact moves_set rfl h
  | setTimeout q n =>
    obtain ⟨rfl,h⟩ : n = captureTimeoutMs ∧ s.set q .timeout = some s' := by simpa [stageStep] using h
    exact moves_set rfl h
  | create name =>
    cases answer with
    | error e =>
      obtain rfl := Option.some.inj h
      exact moves_spared (List.Subset.refl _) rfl rfl nofun
    | ok q =>
      obtain rfl := Option.some.inj h
      exact moves_spared (settingsBut_subset s q) rfl rfl nofun
  | openOffline path =>
    cases answer with
    | error e =>
      obtain rfl := Option.some.inj h
      exact moves_spared (List.Subset.refl _) rfl rfl nofun
    | ok q =>
      obtain rfl := Option.some.inj h
      refine ⟨fun p setting hmem => .inl hmem,fun p hmem => ?_,.inr (.inr ⟨rfl,fun p _ => ⟨nofun,List.mem_cons_of_mem q⟩⟩)⟩
      rcases List.mem_cons.mp hmem with rfl | hmem
      · exact .inr (.inl ⟨path,List.mem_singleton_self _⟩)
      · exact .inl hmem
  | activate q =>
    obtain ⟨-,rfl⟩ : s.Prepared q ∧ _ = s' := by simpa [stageStep] using h
    split
    case isTrue => exact moves_spared (List.Subset.refl _) rfl rfl nofun
    case isFalse hpos =>
      refine ⟨fun p setting hmem => .inl (settingsBut_subset s q hmem),fun p hmem => ?_,
        .inr (.inr ⟨rfl,fun p _ => ⟨nofun,List.mem_cons_of_mem q⟩⟩)⟩
      rcases List.mem_cons.mp hmem with rfl | hmem
      · exact .inr (.inr ⟨answer,not_lt.mp hpos,List.mem_singleton_self _⟩)
      · exact .inl hmem
  | installSignalHandlers =>
    obtain rfl := Option.some.inj h
    exact moves_spared (List.Subset.refl _) rfl rfl nofun
  | setCaptureHandle q =>
    cases q with
    | none =>
      obtain rfl := Option.some.inj h
      exact ⟨fun p setting hmem => .inl hmem,fun p hmem => .inl hmem,.inr (.inl rfl)⟩
    | some q =>
      obtain ⟨⟨hactive,-⟩,rfl⟩ : (q ∈ s.active ∧ _) ∧ _ = s' := by simpa [stageStep] using h
      exact ⟨fun p setting hmem => .inl hmem,fun p hmem => .inl hmem,.inl ⟨q,rfl,hactive,rfl⟩⟩
  | close q =>
    obtain ⟨hq,rfl⟩ : s.published ≠ some q ∧ _ = s' := by simpa [stageStep] using h
    refine ⟨fun p setting hmem => .inl (settingsBut_subset s q hmem),fun p hmem => .inl (List.mem_of_mem_erase hmem),
      .inr (.inr ⟨rfl,fun p hp => ?_⟩)⟩
    have hne : q ≠ p := fun heq => hq (heq ▸ hp)
    exact ⟨fun hclose => hne (SystemCall.close.inj hclose),(List.mem_erase_of_ne hne.symm).mpr⟩
  | _ =>
    obtain rfl : s = s' := by simp_all [stageStep]
    exact moves_spared (List.Subset.refl _) rfl rfl nofun

theorem prepared_of_activate {p : PcapHandle} {result : ℤ} (h : stageStep s ⟨.activate p,result⟩ = some s') : s.Prepared p := by
  unfold stageStep at h
  split at h
  all_goals simp_all

/-- A call that needs an activated handle finds it among the active ones, or published. -/
theorem needsActive_of_stageStep (h : stageStep s x = some s') {p : PcapHandle} (hp : needsActive x.call = some p) :
    p ∈ s.active ∨ s.published = some p := by
  obtain ⟨call,answer⟩ := x
  cases call <;> simp_all [stageStep, needsActive]

end Steps

theorem resource_ne_capture (d : Dumper) (p : PcapHandle) : d.resource ≠ .capture p := by
  unfold Dumper.resource
  split <;> simp

theorem close_of_gives {x : Exchange Answer} {p : PcapHandle} (h : gives x = some (.capture p)) : x.call = .close p := by
  unfold gives at h
  split at h <;> simp_all [resource_ne_capture]

/-- What the books say has happened, and the handle that the signal handler would stop is open
and activated. -/
structure Traced (seen : List (Exchange Answer)) (s : Books) : Prop where
  settings : ∀ p setting, (p,setting) ∈ s.2.settings → setting.exchange p ∈ seen
  active : ∀ p ∈ s.2.active, Activated seen p
  published : ∀ p, s.2.published = some p → .capture p ∈ s.1 ∧ p ∈ s.2.active

theorem traced_step {strict : Bool} {s s' : Books} {x : Exchange Answer} (h : Traced seen s) (hx : monitor strict s x = some s') :
    Traced (seen ++ [x]) s' := by
  obtain ⟨⟨hgives,hneeds,hheld⟩,hstage⟩ := monitor_eq.mp hx
  have hmoves := stageStep_moves hstage
  refine ⟨fun p setting hmem => ?_,fun p hmem => ?_,fun q hq => ?_⟩
  · rcases hmoves.settings p setting hmem with hmem | rfl
    · exact List.mem_append_left _ (h.settings p setting hmem)
    · exact List.mem_append_right _ (List.mem_singleton_self _)
  · rcases hmoves.active p hmem with hmem | ⟨path,hopen⟩ | ⟨result,hpos,hactivate⟩
    · exact (h.active p hmem).later x
    · exact .inl ⟨path,List.mem_append_right _ hopen⟩
    · exact .inr ⟨result,hpos,List.mem_append_right _ hactivate⟩
  · rcases hmoves.published with ⟨p,rfl,hactive,hs'⟩ | hnone | ⟨hpublished,hspared⟩
    · obtain rfl : p = q := Option.some.inj (hs'.symm.trans hq)
      refine ⟨?_,hactive⟩
      rw [← hheld]
      exact hneeds _ (List.mem_singleton_self _) (.inr nofun)
    · rw [hnone] at hq
      cases hq
    · rw [hpublished] at hq
      obtain ⟨hclose,hkeep⟩ := hspared q hq
      refine ⟨?_,hkeep (h.published q hq).2⟩
      rw [← hheld]
      refine List.mem_append_right _ (List.mem_diff_of_mem (h.published q hq).1 fun hmem => hclose (close_of_gives ?_))
      exact Option.mem_toList.mp hmem

/-- In every run the three options are set before an activation, and the calls on a capture
come behind it; the loop runs on the handle that the installed handler would stop, and no
signal at any moment finds a handle that is not open. -/
theorem capture_calls_in_order (h : Runs (main rt args) history result) :
    (∃ stage, run stageStep .start history = some stage ∧ stage.published = none) ∧
      (∀ seen p r rest, history = seen ++ ⟨.activate p,r⟩ :: rest → ⟨.setSnaplen p captureDefaultSnaplen,()⟩ ∈ seen ∧
        ⟨.setPromisc p 1,()⟩ ∈ seen ∧ ⟨.setTimeout p captureTimeoutMs,()⟩ ∈ seen) ∧
      (∀ seen x rest p, history = seen ++ x :: rest → needsActive x.call = some p → Activated seen p) ∧
      ∀ seen, seen <+: history → ∀ stage, run stageStep .start seen = some stage → ∀ p, stage.published = some p →
        p ∈ stage.active ∧ given effect seen (.capture p) < taken effect seen (.capture p) := by
  obtain ⟨s,hrun,-,hpublished⟩ := (main_settles rt args fun h : false = true => nomatch h).follow h
  have hstart : Traced [] .start := ⟨nofun,nofun,nofun⟩
  -- What stands before a call, and the books at that point.
  have hbefore : ∀ seen x rest, history = seen ++ x :: rest →
      ∃ r r' : Books, Traced seen r ∧ stageStep r.2 x = some r'.2 := by
    rintro seen x rest rfl
    obtain ⟨r',hr'⟩ := run_of_prefix hrun (⟨rest,by simp⟩ : seen ++ [x] <+: seen ++ x :: rest)
    obtain ⟨r,hr,hx⟩ := run_concat.mp hr'
    exact ⟨r,r',run_induction (motive := Traced) hstart traced_step hr,(monitor_eq.mp hx).2⟩
  refine ⟨⟨s.2,(run_both hrun).2,hpublished⟩,?_,?_,?_⟩
  · intro seen p result rest hsplit
    obtain ⟨r,r',htraced,hstep⟩ := hbefore seen _ rest hsplit
    have hprepared := (prepared_of_activate hstep).2
    exact ⟨htraced.settings p _ (hprepared .snaplen),htraced.settings p _ (hprepared .promisc),
      htraced.settings p _ (hprepared .timeout)⟩
  · intro seen x rest p hsplit hp
    obtain ⟨r,r',htraced,hstep⟩ := hbefore seen x rest hsplit
    rcases needsActive_of_stageStep hstep hp with hactive | hpublished
    · exact htraced.active p hactive
    · exact htraced.active p (htraced.published p hpublished).2
  · intro seen hseen stage hstage p hp
    obtain ⟨r,hr⟩ := run_of_prefix hrun hseen
    obtain ⟨hledger,hstage'⟩ := run_both hr
    obtain rfl := Option.some.inj (hstage.symm.trans hstage')
    obtain ⟨hheld,hactive⟩ := (run_induction (motive := Traced) hstart traced_step hr).published p hp
    have hpos := List.one_le_count_iff.mpr hheld
    have hcount : 0 + taken effect seen (.capture p) = r.1.count (.capture p) + given effect seen (.capture p) :=
      held_add_taken hledger (.capture p)
    exact ⟨hactive,by omega⟩

theorem watching_in_order : Runs (main exampleRuntime watchingRun) watchingHistory (.ok 0) ∧
    (∃ stage, run stageStep .start watchingHistory = some stage ∧ stage.published = none) ∧
    ∀ seen p r rest, watchingHistory = seen ++ ⟨.activate p,r⟩ :: rest → ⟨.setSnaplen p captureDefaultSnaplen,()⟩ ∈ seen ∧
      ⟨.setPromisc p 1,()⟩ ∈ seen ∧ ⟨.setTimeout p captureTimeoutMs,()⟩ ∈ seen := by
  obtain ⟨hstage,hoptions,-⟩ := capture_calls_in_order watchingHistory_runs
  exact ⟨watchingHistory_runs,hstage,hoptions⟩

end Runs

end Netscope.Calls
