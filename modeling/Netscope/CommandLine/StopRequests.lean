import Netscope.Library.EventRuns
import Netscope.Model.SignalHandler

/-! # Stop requests of a run

The handler reaches `pcap_loop` through `g_capture_handle`, which is set only when
`ns_capture_run` begins, after the handlers are installed. A request that arrives
earlier sets `ns_stop_requested`, which nothing reads.
-/
namespace Netscope.StopRequests
open EventRuns

/-- The handle of the loop that the program is in. -/
def loopHandle : MainPoint → Option PcapHandle
  | .looping handle | .inCallback handle => some handle
  | _ => none

/-- `pcap_breakloop` has been called on a handle. -/
def Broken (s : MainState) (handle : PcapHandle) : Prop := ∃ call ∈ s.breakloops, call.handle = handle

/-- A stop request has reached the loop that the program is in. -/
def Kept (s : MainState) : Prop := ∀ handle, loopHandle s.point = some handle → s.stopRequested = true → Broken s handle

/-- `pcap_breakloop` has not been called on a closed handle. -/
def NeverOnClosed (s : MainState) : Prop := ∀ call ∈ s.breakloops, call.afterClose = false

/-- If `pcap_loop` is entered and the handler has run before `g_capture_handle` was set, it
has run again between this and the call of `pcap_loop`. -/
def Timely (events : List MainEvent) : Prop :=
  .enterLoop ∈ events → Occurs .signal (fun seen => .publish ∉ seen) events →
    Occurs .signal (fun seen => .publish ∈ seen ∧ .enterLoop ∉ seen) events

/-! ## What a run leaves -/

/-- The handler has run since `g_capture_handle` was set. -/
def SignalledOpen (seen : List MainEvent) : Prop := Occurs .signal (fun before => .publish ∈ before) seen

/-- The handle is open and published. -/
structure Published (handle : PcapHandle) (seen : List MainEvent) (s : MainState) : Prop where
  captureHandle : s.captureHandle = some handle
  capHandle : s.handle = some handle
  isOpen : handle ∉ s.closed
  published : .publish ∈ seen
  broken : Broken s handle ↔ SignalledOpen seen
  flagged : handle ∈ s.breakFlags ↔ SignalledOpen seen

/-- The handle is open and not yet published. -/
structure Unpublished (handle : PcapHandle) (seen : List MainEvent) (s : MainState) : Prop where
  captureHandle : s.captureHandle = none
  capHandle : s.handle = some handle
  isOpen : handle ∉ s.closed
  unpublished : .publish ∉ seen
  notEntered : .enterLoop ∉ seen
  breakloops : s.breakloops = []
  breakFlags : s.breakFlags = []

/-- What is known at a point of the program. -/
def AtPoint (handle : PcapHandle) (seen : List MainEvent) (s : MainState) : MainPoint → Prop
  | .installed | .started => Unpublished handle seen s
  | .published => Published handle seen s ∧ .enterLoop ∉ seen
  | .looping h | .inCallback h => h = handle ∧ Published handle seen s ∧ .enterLoop ∈ seen
  | .looped _ => s.captureHandle = some handle ∧ handle ∉ s.closed
  | .withdrawn _ | .ran _ | .stopped | .dumpClosed | .handleClosed | .closed => s.captureHandle = none

structure Tracks (handle : PcapHandle) (seen : List MainEvent) (s : MainState) : Prop where
  requested : s.stopRequested = true ↔ .signal ∈ seen
  neverOnClosed : NeverOnClosed s
  atPoint : AtPoint handle seen s s.point

section Steps
variable {handle : PcapHandle} {seen : List MainEvent} {s s' : MainState} {e : MainEvent}

theorem start_tracks (handle : PcapHandle) (dumper : Bool) : Tracks handle [] (.start handle dumper) where
  requested := iff_of_false Bool.false_ne_true List.not_mem_nil
  neverOnClosed _ hcall := absurd hcall List.not_mem_nil
  atPoint := ⟨rfl,rfl,List.not_mem_nil,List.not_mem_nil,List.not_mem_nil,rfl,rfl⟩

theorem signalledOpen_concat (he : e ≠ .signal) : SignalledOpen (seen ++ [e]) ↔ SignalledOpen seen := by
  rw [SignalledOpen, occurs_concat]
  exact or_iff_left (fun h => he h.1.symm)

/-- The handler with nothing published. -/
theorem handleSignal_none (h : s.captureHandle = none) : handleSignal s = { s with stopRequested := true } := by
  unfold handleSignal
  simp only [h]

theorem handleSignal_some (h : s.captureHandle = some handle) :
    handleSignal s = pcapBreakloop { s with stopRequested := true } handle := by
  unfold handleSignal
  simp only [h]

theorem Published.move (h : Published handle seen s) (he : e ≠ .signal) (p : MainPoint) :
    Published handle (seen ++ [e]) { s with point := p } where
  captureHandle := h.captureHandle
  capHandle := h.capHandle
  isOpen := h.isOpen
  published := List.mem_append_left _ h.published
  broken := h.broken.trans (signalledOpen_concat he).symm
  flagged := h.flagged.trans (signalledOpen_concat he).symm

theorem Published.signal (h : Published handle seen s) : Published handle (seen ++ [.signal]) (handleSignal s) := by
  have hopen : SignalledOpen (seen ++ [.signal]) := occurs_concat.mpr (.inr ⟨rfl,h.published⟩)
  rw [handleSignal_some h.captureHandle]
  exact ⟨h.captureHandle,h.capHandle,h.isOpen,List.mem_append_left _ h.published,
    iff_of_true ⟨_,List.mem_append_right _ (List.mem_singleton_self _),rfl⟩ hopen,
    iff_of_true List.mem_cons_self hopen⟩

theorem notMem_concat {x : MainEvent} (h : x ∉ seen) (hne : x ≠ e) : x ∉ seen ++ [e] := by
  rw [List.mem_append, List.mem_singleton]
  exact not_or_intro h hne

theorem Unpublished.move (h : Unpublished handle seen s) (hpublish : .publish ≠ e) (henter : .enterLoop ≠ e)
    (p : MainPoint) : Unpublished handle (seen ++ [e]) { s with point := p } where
  captureHandle := h.captureHandle
  capHandle := h.capHandle
  isOpen := h.isOpen
  unpublished := notMem_concat h.unpublished hpublish
  notEntered := notMem_concat h.notEntered henter
  breakloops := h.breakloops
  breakFlags := h.breakFlags

/-- The assignment of `g_capture_handle`. -/
theorem Unpublished.publish (h : Unpublished handle seen s) :
    Published handle (seen ++ [.publish]) { nsSignalSetCaptureHandle s s.handle with point := .published } := by
  have hnone : ¬SignalledOpen (seen ++ [.publish]) := by
    rw [signalledOpen_concat (by decide)]
    rintro ⟨before,hbefore,hmem⟩
    exact h.unpublished (hbefore.subset (List.mem_append_left _ hmem))
  refine ⟨h.capHandle,h.capHandle,h.isOpen,by simp,iff_of_false ?_ hnone,iff_of_false ?_ hnone⟩
  · rintro ⟨call,hcall,-⟩
    change call ∈ s.breakloops at hcall
    rw [h.breakloops] at hcall
    cases hcall
  · change handle ∉ s.breakFlags
    rw [h.breakFlags]
    exact List.not_mem_nil

/-- The handler keeps what is known at every point. -/
theorem AtPoint.signal {p : MainPoint} (h : AtPoint handle seen s p) :
    AtPoint handle (seen ++ [.signal]) (handleSignal s) p := by
  cases p with
  | installed | started =>
    rw [AtPoint, handleSignal_none h.captureHandle]
    exact ⟨h.captureHandle,h.capHandle,h.isOpen,notMem_concat h.unpublished (by decide),
      notMem_concat h.notEntered (by decide),h.breakloops,h.breakFlags⟩
  | published => exact ⟨h.1.signal,notMem_concat h.2 (by decide)⟩
  | looping _ | inCallback _ => exact ⟨h.1,h.2.1.signal,List.mem_append_left _ h.2.2⟩
  | looped _ =>
    rw [AtPoint, handleSignal_some h.1]
    exact h
  | withdrawn _ | ran _ | stopped | dumpClosed | handleClosed | closed =>
    rw [AtPoint, handleSignal_none h]
    exact h

/-- A handle that the handler can reach is open. -/
theorem AtPoint.isOpen {p : MainPoint} (h : AtPoint handle seen s p) :
    s.captureHandle = none ∨ s.captureHandle = some handle ∧ handle ∉ s.closed := by
  cases p with
  | installed | started => exact .inl h.captureHandle
  | published => exact .inr ⟨h.1.captureHandle,h.1.isOpen⟩
  | looping _ | inCallback _ => exact .inr ⟨h.2.1.captureHandle,h.2.1.isOpen⟩
  | looped _ => exact .inr h
  | withdrawn _ | ran _ | stopped | dumpClosed | handleClosed | closed => exact .inl h

theorem handleSignal_point (s : MainState) : (handleSignal s).point = s.point := by
  unfold handleSignal
  cases hc : s.captureHandle <;> rfl

theorem handleSignal_stopRequested (s : MainState) : (handleSignal s).stopRequested = true := by
  unfold handleSignal
  cases hc : s.captureHandle <;> rfl

theorem Tracks.signal (h : Tracks handle seen s) : Tracks handle (seen ++ [.signal]) (handleSignal s) where
  requested := iff_of_true (handleSignal_stopRequested s) (by simp)
  neverOnClosed := by
    rcases h.atPoint.isOpen with hnone | ⟨hsome,hopen⟩
    · rw [handleSignal_none hnone]
      exact h.neverOnClosed
    · rw [handleSignal_some hsome]
      intro call hcall
      rcases List.mem_append.mp hcall with hcall | hcall
      · exact h.neverOnClosed call hcall
      · obtain rfl := List.mem_singleton.mp hcall
        exact decide_eq_false hopen
  atPoint := by
    rw [handleSignal_point]
    exact h.atPoint.signal

/-- A step of `main` or of libpcap requests no stop and calls no `pcap_breakloop`. -/
theorem Tracks.other (h : Tracks handle seen s) (he : .signal ≠ e) (hstop : s'.stopRequested = s.stopRequested)
    (hcalls : s'.breakloops = s.breakloops) (hat : AtPoint handle (seen ++ [e]) s' s'.point) :
    Tracks handle (seen ++ [e]) s' where
  requested := by
    rw [hstop, h.requested, List.mem_append, List.mem_singleton]
    exact (or_iff_left he).symm
  neverOnClosed call hcall := h.neverOnClosed call (hcalls ▸ hcall)
  atPoint := hat

theorem Tracks.step (h : Tracks handle seen s) (he : mainStep s e = some s') : Tracks handle (seen ++ [e]) s' := by
  have hat := h.atPoint
  unfold mainStep at he
  generalize s.point = p at hat he
  split at he
  · obtain rfl := Option.some.inj he
    exact h.signal
  · -- `startClock`
    obtain rfl := Option.some.inj he
    exact h.other (by decide) rfl rfl (hat.move (by decide) (by decide) _)
  · -- `publish`
    obtain rfl := Option.some.inj he
    exact h.other (by decide) rfl rfl ⟨hat.publish,notMem_concat hat.notEntered (by decide)⟩
  · -- `enterLoop`
    obtain ⟨h₀,hsome,rfl⟩ := Option.map_eq_some_iff.mp he
    obtain rfl := Option.some.inj (hat.1.capHandle.symm.trans hsome)
    have hmoved := hat.1.move (e := .enterLoop) (by decide) (.looping handle)
    exact h.other (by decide) rfl rfl ⟨rfl,hmoved,by simp⟩
  · -- `dispatch`
    split at he
    · cases he
    · obtain rfl := Option.some.inj he
      exact h.other (by decide) rfl rfl ⟨hat.1,hat.2.1.move (by decide) _,List.mem_append_left _ hat.2.2⟩
  · -- `packetDone`
    obtain rfl := Option.some.inj he
    exact h.other (by decide) rfl rfl ⟨hat.1,hat.2.1.move (by decide) _,List.mem_append_left _ hat.2.2⟩
  · -- `leaveLoop`, with the flag set or not
    have hopen := And.intro hat.2.1.captureHandle hat.2.1.isOpen
    split at he
    · split at he
      · obtain rfl := Option.some.inj he
        exact h.other nofun rfl rfl hopen
      · cases he
    · split at he
      · cases he
      · obtain rfl := Option.some.inj he
        exact h.other nofun rfl rfl hopen
  · -- `withdraw`
    obtain rfl := Option.some.inj he
    exact h.other (by decide) rfl rfl rfl
  · -- `finishRun`
    obtain rfl := Option.some.inj he
    exact h.other (by decide) rfl rfl hat
  · -- `stopClock`
    obtain rfl := Option.some.inj he
    exact h.other (by decide) rfl rfl hat
  · -- `closeDump`
    obtain rfl := Option.some.inj he
    exact h.other (by decide) rfl rfl hat
  · -- `closeHandle`
    split at he
    · obtain rfl := Option.some.inj he
      exact h.other (by decide) rfl rfl hat
    · obtain rfl := Option.some.inj he
      exact h.other (by decide) rfl rfl hat
  · -- `clearHandle`
    obtain rfl := Option.some.inj he
    exact h.other (by decide) rfl rfl hat
  · cases he

end Steps

/-! ## Whole runs -/

section Runs
variable {handle : PcapHandle} {dumper : Bool} {events seen : List MainEvent} {s : MainState}

theorem run_tracks (h : run mainStep (.start handle dumper) events = some s) : Tracks handle events s :=
  run_induction (start_tracks handle dumper) (fun htracks he => htracks.step he) h

theorem Tracks.inLoop (h : Tracks handle seen s) {h' : PcapHandle} (hloop : loopHandle s.point = some h') :
    h' = handle ∧ Published handle seen s ∧ .enterLoop ∈ seen := by
  have hat := h.atPoint
  generalize s.point = p at hat hloop
  cases p with
  | looping _ | inCallback _ =>
    obtain rfl := Option.some.inj hloop
    exact hat
  | _ => cases hloop

/-- The run reaches `pcap_loop` when it enters it. -/
theorem enterLoop_point {s' : MainState} (h : Tracks handle seen s) (he : mainStep s .enterLoop = some s') :
    loopHandle s'.point = some handle ∧ .enterLoop ∉ seen := by
  have hat := h.atPoint
  unfold mainStep at he
  generalize s.point = p at hat he
  cases p with
  | published =>
    obtain ⟨h₀,hsome,rfl⟩ := Option.map_eq_some_iff.mp he
    obtain rfl := Option.some.inj (hat.1.capHandle.symm.trans hsome)
    exact ⟨rfl,hat.2⟩
  | _ => cases he

/-- A run whose requests are timely keeps them. -/
theorem kept_of_timely (hrun : run mainStep (.start handle dumper) seen = some s) (hseen : seen <+: events)
    (ht : Timely events) : Kept s := by
  have htracks := run_tracks hrun
  intro h' hloop hstop
  obtain ⟨rfl,hpublished,henter⟩ := htracks.inLoop hloop
  rw [hpublished.broken]
  rcases occurs_or (htracks.requested.mp hstop) (fun before => .publish ∈ before) with hopen | hearly
  · exact hopen
  · -- An early request is repeated before the loop is entered, and the loop is entered in `seen`.
    obtain ⟨before,hbefore,hpublish,hnot⟩ := ht (hseen.subset henter) (hearly.mono hseen)
    rcases List.prefix_or_prefix_of_prefix hbefore hseen with hle | hle
    · exact ⟨before,hle,hpublish⟩
    · have hmem := hle.subset henter
      rw [List.mem_append, List.mem_singleton] at hmem
      exact absurd hmem (not_or_intro hnot (by decide))

/-- Once a timely request has been made, `pcap_loop` hands over no further packet. -/
theorem dispatch_refused (hrun : run mainStep (.start handle dumper) events = some s) (ht : Timely events)
    (hstop : s.stopRequested = true) : mainStep s .dispatch = none := by
  have htracks := run_tracks hrun
  unfold mainStep
  cases hpoint : s.point with
  | looping h' =>
    have hloop : loopHandle s.point = some h' := by rw [hpoint, loopHandle]
    obtain ⟨rfl,hpublished,-⟩ := htracks.inLoop hloop
    have hbroken := kept_of_timely hrun List.prefix_rfl ht h' hloop hstop
    exact if_pos (hpublished.flagged.mpr (hpublished.broken.mp hbroken))
  | _ => rfl

/-- A run that keeps its requests has timely ones. -/
theorem timely_of_kept (hrun : run mainStep (.start handle dumper) events = some s)
    (hkept : Throughout mainStep (.start handle dumper) events Kept) : Timely events := by
  intro henter hearly
  obtain ⟨seen,hseen,-⟩ := (occurs_or henter fun _ => True).resolve_right (fun ⟨_,_,h⟩ => h trivial)
  obtain ⟨s₁,hs₁⟩ := run_of_prefix hrun hseen
  obtain ⟨s₀,hs₀,he⟩ := run_concat.mp hs₁
  obtain ⟨hloop,hnot⟩ := enterLoop_point (run_tracks hs₀) he
  have htracks := run_tracks hs₁
  obtain ⟨-,hpublished,-⟩ := htracks.inLoop hloop
  have hsignal : .signal ∈ seen ++ [.enterLoop] := by
    obtain ⟨before,hbefore,hunpublished⟩ := hearly
    rcases List.prefix_or_prefix_of_prefix hbefore hseen with hle | hle
    · exact hle.subset (by simp)
    · have hmem := hle.subset hpublished.published
      rw [List.mem_append, List.mem_singleton] at hmem
      exact absurd hmem (not_or_intro hunpublished (by decide))
  -- The state behind `enterLoop` keeps the request, so the handler has run since the publication.
  have hopen := hpublished.broken.mp (hkept _ hseen s₁ hs₁ handle hloop (htracks.requested.mpr hsignal))
  rw [signalledOpen_concat (by decide)] at hopen
  obtain ⟨before,hbefore,hpublish⟩ := hopen
  refine ⟨before,hbefore.trans ((List.prefix_append _ _).trans hseen),hpublish,?_⟩
  exact fun hmem => hnot (hbefore.subset (List.mem_append_left _ hmem))

/-- In every run `pcap_breakloop` is called on open handles only, and the stop requests are
kept in every state exactly if those before the publication of the handle are repeated in time. -/
theorem kept_iff_timely (handle : PcapHandle) (dumper : Bool) (events : List MainEvent) (s : MainState)
    (hrun : run mainStep (.start handle dumper) events = some s) :
    Throughout mainStep (.start handle dumper) events NeverOnClosed ∧
      (Throughout mainStep (.start handle dumper) events Kept ↔ Timely events) := by
  refine ⟨fun seen _ r hr => (run_tracks hr).neverOnClosed,timely_of_kept hrun,?_⟩
  intro ht seen hseen r hr
  exact kept_of_timely hr hseen ht

end Runs

/-! ## Two runs -/

/-- A request that arrives while a packet is handled. -/
def stoppedRun : List MainEvent :=
  [.startClock,.publish,.enterLoop,.dispatch,.signal,.packetDone,.leaveLoop .broken,.withdraw,.finishRun,.stopClock,
    .closeDump,.closeHandle,.clearHandle]

theorem kept_iff_timely_stoppedRun :
    Throughout mainStep (.start 1 false) stoppedRun NeverOnClosed ∧
      (Throughout mainStep (.start 1 false) stoppedRun Kept ↔ Timely stoppedRun) :=
  kept_iff_timely 1 false stoppedRun
    ⟨.closed,true,none,none,false,[],[1],[⟨1,false⟩]⟩ rfl

/-- A request between the installation of the handlers and the publication of the handle is
lost: the loop is entered with the request set and no call of `pcap_breakloop`. -/
theorem earlyRequest_lost :
    run mainStep (.start 1 false) [.signal,.startClock,.publish,.enterLoop] =
        some ⟨.looping 1,true,some 1,some 1,false,[],[],[]⟩ ∧
      ¬∀ (handle : PcapHandle) (dumper : Bool) (events : List MainEvent) (s : MainState),
        run mainStep (.start handle dumper) events = some s → Kept s ∧ NeverOnClosed s := by
  have hrun : run mainStep (.start 1 false) [.signal,.startClock,.publish,.enterLoop] =
      some ⟨.looping 1,true,some 1,some 1,false,[],[],[]⟩ := rfl
  refine ⟨hrun,?_⟩
  intro h
  obtain ⟨call,hcall,-⟩ := (h 1 false _ _ hrun).1 1 rfl rfl
  cases hcall

/-- After a lost request the capture goes on for any number of packets. -/
theorem lostRequest_dispatches (n : ℕ) :
    run mainStep ⟨.looping 1,true,some 1,some 1,false,[],[],[]⟩ (List.replicate n [.dispatch,.packetDone]).flatten =
      some ⟨.looping 1,true,some 1,some 1,false,[],[],[]⟩ := by
  induction n with
  | zero => rfl
  | succ n ih => exact ih

end Netscope.StopRequests
