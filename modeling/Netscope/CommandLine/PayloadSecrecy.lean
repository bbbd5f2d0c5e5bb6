import Netscope.CommandLine.JsonStream
import Netscope.Layers.InspectedBytes
import Netscope.Layers.SnapLength

/-! # Payloads stay private

Without a hex dump and without a capture file on the standard output, nothing that a run
shows depends on bytes behind the headers: two captures that agree on the inspected bytes
of every frame lead to the same run.
-/
namespace Netscope.PayloadSecrecy
open ByteString Layers InspectedBytes JsonStream StoredArguments

/-! ## Packets -/

section Packets
variable (pkt : Packet) (d : Bytes)

/-- Only the hex dump shows captured bytes. -/
theorem nsOutputPacket_rawData (clock : Clock) (opts : OutputOptions)
    (h : opts.format = .json ∨ opts.quiet = true ∨ opts.hex = false) :
    nsOutputPacket clock { pkt with rawData := d } opts = nsOutputPacket clock pkt opts := by
  unfold nsOutputPacket
  split
  · rfl
  · split
    · rfl
    · rename_i hjson hquiet
      have hhex : opts.hex = false := by tauto
      rw [hhex]
      rfl

/-- The statistics count packets and do not look at their bytes. -/
theorem nsStatsUpdate_rawData (stats : Stats) : nsStatsUpdate stats { pkt with rawData := d } = nsStatsUpdate stats pkt := by
  simp only [nsStatsUpdate, countPacket, countDns, countTransport, countNetwork, countTotals, extractEndpoints,
    networkAddresses, transportPorts]

end Packets

/-! ## Frames -/

/-- Two frames that differ at most in bytes that are not inspected. -/
structure Alike (f f' : PcapFrame) : Prop where
  len : f'.len = f.len
  ts : f'.ts = f.ts
  bytes : Agree (inspected f.data (pcapPacketCallback .ethernet 0 f)) f.data f'.data

/-- The arguments of the `i`-th call of the parser. -/
def frameCapture (i : ℕ) (f : PcapFrame) : Capture := ⟨f.data,f.len,f.ts,UInt64.ofNat (i + 1),.ethernet⟩

/-- At every position the packets of alike frames differ in their bytes alone. -/
theorem Alike.packet {f f' : PcapFrame} (h : Alike f f') (i : ℕ) :
    pcapPacketCallback .ethernet i f' = { pcapPacketCallback .ethernet i f with rawData := f'.data } := by
  have hplace : (frameCapture i f).packet = (label (frameCapture i f)).on (frameCapture 0 f).packet := packet_label rfl rfl
  have hbytes := h.bytes
  change Agree (inspected f.data (frameCapture 0 f).packet) f.data f'.data at hbytes
  have hseen : Agree (inspected (frameCapture i f).data (frameCapture i f).packet) (frameCapture i f).data
      (frameCapture i f').data := by
    rw [hplace, inspected_label]
    exact hbytes
  have hdecided := @packet_decided (frameCapture i f) (frameCapture i f') rfl hseen
  change (frameCapture i f').packet = { (frameCapture i f).packet with rawData := f'.data }
  rw [hdecided, hplace]
  unfold label Label.on frameCapture
  rw [h.len, h.ts]

/-! ## Runs -/

/-- No captured byte is printed as it is. -/
structure ShowsNoBytes (config : Config) : Prop where
  dump : dumpsToStdout config = false
  hex : config.format = .json ∨ config.quiet = true ∨ config.hexDump = false

section Run
variable {sys : System} {config : Config} (hconfig : ShowsNoBytes config)
include hconfig

theorem onFrame_alike {f f' : PcapFrame} (h : Alike f f') (s : LoopState) (i : ℕ) :
    onFrame sys config .ethernet s (f',i) = onFrame sys config .ethernet s (f,i) := by
  have htext := nsOutputPacket_rawData (pcapPacketCallback .ethernet i f) f'.data sys.clock (outputOptions sys config)
    hconfig.hex
  simp only [onFrame, handlePacket, hconfig.dump, Bool.false_eq_true, ↓reduceIte]
  rw [h.packet i, htext, nsStatsUpdate_rawData]

/-- By induction over the frames, the loops stay in step. -/
theorem foldl_onFrame_alike {fs fs' : List PcapFrame} (h : List.Forall₂ Alike fs fs') (s : LoopState) (i : ℕ) :
    (fs'.zipIdx i).foldl (onFrame sys config .ethernet) s = (fs.zipIdx i).foldl (onFrame sys config .ethernet) s := by
  induction h generalizing s i with
  | nil => rfl
  | cons hframe _ ih =>
    rw [List.zipIdx_cons, List.zipIdx_cons, List.foldl_cons, List.foldl_cons, onFrame_alike hconfig hframe, ih]

end Run

/-- The system with other frames on its network. -/
def withFrames (sys : System) (frames : List PcapFrame) : System := { sys with pcap := { sys.pcap with frames := frames } }

section Main
variable {sys : System} {frames : List PcapFrame} (hframes : List.Forall₂ Alike sys.pcap.frames frames)
include hframes

theorem openOutputs_alike {config : Config} (hconfig : ShowsNoBytes config) (bpfExpr : Bytes) :
    openOutputs (withFrames sys frames) config .ethernet bpfExpr = openOutputs sys config .ethernet bpfExpr := by
  have hrun : ∀ stdout, runCapture (withFrames sys frames) config .ethernet bpfExpr stdout =
      runCapture sys config .ethernet bpfExpr stdout := by
    intro stdout
    have hloop : (withFrames sys frames).pcap.frames.zipIdx.foldl (onFrame (withFrames sys frames) config .ethernet)
        ⟨nsStatsInit,stdout ++ banner config,[]⟩ =
          sys.pcap.frames.zipIdx.foldl (onFrame sys config .ethernet) ⟨nsStatsInit,stdout ++ banner config,[]⟩ :=
      foldl_onFrame_alike hconfig hframes _ 0
    unfold runCapture
    simp only [hloop]
    rfl
  unfold openOutputs
  simp only [hrun]
  rfl

theorem openCapture_alike {config : Config} (hconfig : ShowsNoBytes config) (bpfExpr : Bytes) :
    openCapture (withFrames sys frames) config bpfExpr = openCapture sys config bpfExpr := by
  have hopened : (if config.inputMode = .live then
      nsCaptureOpenLive (withFrames sys frames).pcap config.interface.bytes bpfExpr errLen
    else nsCaptureOpenOffline (withFrames sys frames).pcap config.readFile.bytes bpfExpr errLen) =
      if config.inputMode = .live then nsCaptureOpenLive sys.pcap config.interface.bytes bpfExpr errLen
      else nsCaptureOpenOffline sys.pcap config.readFile.bytes bpfExpr errLen := rfl
  unfold openCapture
  rw [hopened]
  cases hok : (if config.inputMode = .live then nsCaptureOpenLive sys.pcap config.interface.bytes bpfExpr errLen
    else nsCaptureOpenOffline sys.pcap config.readFile.bytes bpfExpr errLen) with
  | error e => rfl
  | ok linkType =>
    obtain rfl := opened_ethernet sys hok
    exact openOutputs_alike hframes hconfig bpfExpr

theorem runConfig_alike {config : Config} (hconfig : ShowsNoBytes config) :
    runConfig (withFrames sys frames) config = runConfig sys config := by
  unfold runConfig
  simp only [openCapture_alike hframes hconfig]
  rfl

end Main

/-- Runs over captures that agree on the inspected bytes end alike and show the same. -/
theorem main_alike (sys : System) (frames : List PcapFrame) (args : CommandLine)
    (hconfig : ∀ config, nsConfigParse args errLen = .ok config → ShowsNoBytes config)
    (hframes : List.Forall₂ Alike sys.pcap.frames frames) : main (withFrames sys frames) args = main sys args := by
  cases hparse : nsConfigParse args errLen with
  | error e => rw [main, main, hparse]
  | ok config =>
    rw [main_accepted hparse, main_accepted hparse]
    exact runConfig_alike hframes (hconfig config hparse)

/-- A TCP segment over IPv4 with five bytes of payload. -/
def segmentFrame (payload : Vector UInt8 5) : PcapFrame where
  data := SnapLength.synFrame.set 17 45 ++ payload.toList
  len := 59
  ts := ⟨0,0⟩

/-- `netscope -r capture.pcap --verbose --stats` -/
def verboseRun : CommandLine := ⟨[.read capturePath,.verbose,.stats],none⟩

def verboseConfig : Config :=
  { initialState.out with inputMode := .file, readFile := capturePath, verboseOutput := true, showStats := true }

theorem segments_alike : Alike (segmentFrame #v[104,101,108,108,111]) (segmentFrame #v[119,111,114,108,100]) where
  len := rfl
  ts := rfl
  bytes := by
    have hheaders : inspected (segmentFrame #v[104,101,108,108,111]).data
        (pcapPacketCallback .ethernet 0 (segmentFrame #v[104,101,108,108,111])) = 54 := by decide +kernel
    rw [hheaders]
    exact ⟨rfl,by decide +kernel⟩

theorem main_alike_segments :
    main (withFrames (withFrames oneQuery [segmentFrame #v[104,101,108,108,111]])
        [segmentFrame #v[119,111,114,108,100]]) verboseRun =
      main (withFrames oneQuery [segmentFrame #v[104,101,108,108,111]]) verboseRun := by
  apply main_alike
  · intro config hparse
    have haccepted : nsConfigParse verboseRun errLen = .ok verboseConfig := by decide +kernel
    obtain rfl := Except.ok.inj (hparse.symm.trans haccepted)
    exact ⟨by decide,.inr (.inr rfl)⟩
  · exact .cons segments_alike .nil

end Netscope.PayloadSecrecy
