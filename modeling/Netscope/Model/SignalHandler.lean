import Mathlib.Data.List.Basic

/-! # Stop requests

`signal_handler.c` with the part of `main` between the return of
`ns_install_signal_handlers` and the end of `ns_capture_close`, one statement a step.
`handle_signal` may run between any two steps. `pcap_breakloop` sets a flag on its
handle; `pcap_loop` looks at the flag before each packet, and with the flag set it
clears it and returns.
-/
namespace Netscope

/-- A `pcap_t *` that is not null, by its address. -/
abbrev PcapHandle := ℕ

/-- The results 0, -1 and -2 of `pcap_loop`. -/
inductive LoopResult where
  | eof
  | failed
  | broken
deriving DecidableEq, Repr

/-- What `main` has done last. The two points inside `pcap_loop` carry its handle. -/
inductive MainPoint where
  | installed
  | started
  | published
  | looping (handle : PcapHandle)
  | inCallback (handle : PcapHandle)
  | looped (result : LoopResult)
  | withdrawn (result : LoopResult)
  | ran (ok : Bool)
  | stopped
  | dumpClosed
  | handleClosed
  | closed
deriving DecidableEq, Repr

/-- A call of `pcap_breakloop`, and whether its handle had been closed before. -/
structure BreakloopCall where
  handle : PcapHandle
  afterClose : Bool
deriving DecidableEq, Repr

structure MainState where
  point : MainPoint
  /-- `ns_stop_requested` -/
  stopRequested : Bool
  /-- `g_capture_handle` -/
  captureHandle : Option PcapHandle
  /-- `cap.handle` and whether `cap.dumper` is set. -/
  handle : Option PcapHandle
  dumper : Bool
  /-- The handles whose flag is set, the closed handles and the calls of `pcap_breakloop`. -/
  breakFlags : List PcapHandle
  closed : List PcapHandle
  breakloops : List BreakloopCall
deriving DecidableEq, Repr

/-- The state when `ns_install_signal_handlers` returns, with an open capture. -/
def MainState.start (handle : PcapHandle) (dumper : Bool) : MainState where
  point := .installed
  stopRequested := false
  captureHandle := none
  handle := some handle
  dumper := dumper
  breakFlags := []
  closed := []
  breakloops := []

def pcapBreakloop (s : MainState) (handle : PcapHandle) : MainState :=
  { s with
    breakFlags := handle :: s.breakFlags
    breakloops := s.breakloops ++ [⟨handle,decide (handle ∈ s.closed)⟩] }

def handleSignal (s : MainState) : MainState :=
  let s := { s with stopRequested := true }
  match s.captureHandle with
  | some handle => pcapBreakloop s handle
  | none => s

def nsSignalSetCaptureHandle (s : MainState) (handle : Option PcapHandle) : MainState := { s with captureHandle := handle }

def pcapClose (s : MainState) (handle : PcapHandle) : MainState := { s with closed := handle :: s.closed }

/-- The steps of `main`, of `pcap_loop` and of the handler. -/
inductive MainEvent where
  | signal
  | startClock
  | publish
  | enterLoop
  | dispatch
  | packetDone
  | leaveLoop (result : LoopResult)
  | withdraw
  | finishRun
  | stopClock
  | closeDump
  | closeHandle
  | clearHandle
deriving DecidableEq, Repr

/-- One step; a step that does not come next is refused. -/
def mainStep (s : MainState) (e : MainEvent) : Option MainState :=
  match e, s.point with
  | .signal, _ => some (handleSignal s)
  | .startClock, .installed => some { s with point := .started }
  | .publish, .started => some { nsSignalSetCaptureHandle s s.handle with point := .published }
  | .enterLoop, .published => s.handle.map fun handle => { s with point := .looping handle }
  | .dispatch, .looping handle =>
    if handle ∈ s.breakFlags then none else some { s with point := .inCallback handle }
  | .packetDone, .inCallback handle => some { s with point := .looping handle }
  | .leaveLoop result, .looping handle =>
    if handle ∈ s.breakFlags then
      if result = .broken then
        some { s with point := .looped result, breakFlags := s.breakFlags.filter fun h => h ≠ handle }
      else none
    else if result = .broken then none
    else some { s with point := .looped result }
  | .withdraw, .looped result => some { nsSignalSetCaptureHandle s none with point := .withdrawn result }
  -- Only the result -1 makes `ns_capture_run` fail.
  | .finishRun, .withdrawn result => some { s with point := .ran (result ≠ .failed) }
  | .stopClock, .ran _ => some { s with point := .stopped }
  | .closeDump, .stopped => some { s with point := .dumpClosed, dumper := false }
  | .closeHandle, .dumpClosed =>
    match s.handle with
    | some handle => some { pcapClose s handle with point := .handleClosed }
    | none => some { s with point := .closed }
  | .clearHandle, .handleClosed => some { s with point := .closed, handle := none }
  | _, _ => none

end Netscope
