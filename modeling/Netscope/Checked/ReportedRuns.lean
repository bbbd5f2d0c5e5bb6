import Netscope.Checked.CountedPackets
import Netscope.Library.JsonWriting
import Netscope.Stats.TopConversations

/-! # Whole runs stay inside their memory

The report at the end of a run reads what the packets left in the flow table. A run over
any frames, with its report, performs no undefined access and prints what the functional
model prints.
-/
namespace Netscope.Checked
open ByteString PartialMemory Numerals TerminalOutput

/-! ## Printing the report -/

theorem byteUnit_lt {value unit : ℕ} (h : unit < byteUnits.length) : byteUnit value unit < byteUnits.length := by
  induction value, unit using byteUnit.induct with
  | case1 value unit hnext ih =>
    rw [byteUnit, if_pos hnext]
    exact ih (by omega)
  | case2 value unit hstop =>
    rw [byteUnit, if_neg hstop]
    exact h

/-- The texts of the floating-point conversions hold no NUL. -/
def PrintLibrary.Terminated (lib : PrintLibrary) : Prop := ∀ bytes unit, (0 : UInt8) ∉ lib.scaled bytes unit

section Print
variable {lib : PrintLibrary} (hlib : lib.Terminated)
include hlib

/-- A formatted byte count is read back whole. -/
theorem nsFormatBytes_eq (sort : (Netscope.Flow → Netscope.Flow → ℤ) → List Netscope.Flow → List Netscope.Flow)
    (bytes : UInt64) {buf : Cells} (hbuf : buf.length = 32) :
    ∃ buf', nsFormatBytes lib bytes buf 32 = .ok buf' ∧
      loadString buf' = .ok (Netscope.nsFormatBytes ⟨lib.scaled,lib.percent,sort⟩ bytes 32) := by
  have hunit : byteUnit bytes.toNat 0 < byteUnits.length := byteUnit_lt (by decide)
  have hname : ∀ name ∈ byteUnits, (0 : UInt8) ∉ name := by decide
  have hwhole : ∀ {s : Bytes}, (0 : UInt8) ∉ s → cString (snprintf 32 s) = snprintf 32 s := by
    intro s hs
    exact (cString_eq_self_iff _).mpr fun h => hs (List.mem_of_mem_take h)
  have hget : byteUnits.getD (byteUnit bytes.toNat 0) [] = byteUnits[byteUnit bytes.toNat 0] := by
    rw [List.getD_eq_getElem?_getD, List.getElem?_eq_getElem hunit]
    rfl
  unfold nsFormatBytes Netscope.nsFormatBytes
  simp only [element_ok hunit, ok_bind, hget]
  have hmem := hname _ (List.getElem_mem hunit)
  generalize byteUnits[byteUnit bytes.toNat 0] = name at hmem
  split
  · obtain ⟨buf',hprint,hholds⟩ := printInto_holds (by decide) hbuf (decimal bytes.toNat ++ [32] ++ name)
    refine ⟨buf',hprint,?_⟩
    have hdigits : (0 : UInt8) ∉ decimal bytes.toNat := fun h => absurd (Json.isDigit_of_mem_decimal h) (by decide)
    rw [loadString_holds hholds, hwhole]
    simp [hdigits, hmem]
  · obtain ⟨buf',hprint,hholds⟩ := printInto_holds (by decide) hbuf
      (lib.scaled bytes (byteUnit bytes.toNat 0) ++ [32] ++ name)
    refine ⟨buf',hprint,?_⟩
    rw [loadString_holds hholds, hwhole]
    simp [hlib bytes _, hmem]

theorem printTotals_eq (sort : (Netscope.Flow → Netscope.Flow → ℤ) → List Netscope.Flow → List Netscope.Flow)
    (stats : Netscope.Stats) (duration : Bytes) :
    printTotals lib stats duration = .ok (Netscope.printTotals ⟨lib.scaled,lib.percent,sort⟩ stats duration) := by
  obtain ⟨captured,h₁,hload₁⟩ := nsFormatBytes_eq hlib sort stats.totalCapturedBytes (fresh_length 32)
  obtain ⟨wire,h₂,hload₂⟩ := nsFormatBytes_eq hlib sort stats.totalWireBytes (fresh_length 32)
  unfold printTotals Netscope.printTotals
  simp only [h₁, h₂, hload₁, hload₂, ok_bind]
  rfl

end Print

/-! ### The pointers -/

/-- The first `n` of the pointers are set, to the flows in use among the first `k` slots. -/
structure Collected (flows : List Flow) (k : ℕ) (sorted : List (Option Flow)) (n : ℕ) : Prop where
  length : sorted.length = flows.length
  count : n = ((flows.take k).filter Flow.inUse).length
  pointers : sorted.take n = ((flows.take k).filter Flow.inUse).map some

/-- By induction over the slots, every pointer is stored inside the array. -/
theorem collectFlow_collected (flows : List Flow) (hsize : flows.length < 2 ^ 64) {k : ℕ} (hk : k ≤ flows.length) :
    ∃ sorted n, (List.range k).foldlM (collectFlow flows) (List.replicate flows.length none,0) = .ok (sorted,n) ∧
      Collected flows k sorted n := by
  induction k with
  | zero => exact ⟨_,0,rfl,List.length_replicate,by simp,by simp⟩
  | succ k ih =>
    obtain ⟨sorted,n,hfold,hcollected⟩ := ih (by omega)
    have hn : n ≤ k := by
      rw [hcollected.count]
      exact (List.length_filter_le _ _).trans (List.length_take_le k flows)
    have htake : flows.take (k + 1) = flows.take k ++ [flows[k]] := (List.take_append_getElem (by omega)).symm
    rw [List.range_succ, List.foldlM_append, hfold, ok_bind, List.foldlM_cons, collectFlow, element_ok (by omega), ok_bind]
    cases huse : flows[k].inUse with
    | true =>
      rw [if_pos rfl]
      rw [setElement_ok (by rw [hcollected.length]; omega), ok_bind, sizeAdd_ok (by omega), ok_bind]
      refine ⟨_,_,rfl,?_,?_,?_⟩
      · rw [List.length_set, hcollected.length]
      · rw [htake, List.filter_append, List.length_append, ← hcollected.count]
        simp [huse]
      · rw [take_succ_set (by rw [hcollected.length]; omega), hcollected.pointers, htake, List.filter_append, List.map_append]
        simp [huse]
    | false =>
      refine ⟨sorted,n,rfl,hcollected.length,?_,?_⟩
      · rw [htake, List.filter_append, hcollected.count]
        simp [huse]
      · rw [htake, List.filter_append, hcollected.pointers]
        simp [huse]

/-! ### The conversations -/

/-- The flow that a slot shows. -/
def Flow.shown (slot : Flow) : Netscope.Flow where
  inUse := slot.inUse
  protocol := slot.protocol
  addrA := (loadString slot.addrA).toOption.getD []
  addrB := (loadString slot.addrB).toOption.getD []
  portA := slot.portA
  portB := slot.portB
  packets := slot.packets
  bytes := slot.bytes

theorem FlowHolds.shown {f : Netscope.Flow} {slot : Flow} (h : FlowHolds f slot) : slot.shown = f := by
  obtain ⟨inUse,protocol,addrA,addrB,portA,portB,packets,bytes⟩ := f
  obtain ⟨huse,hprotocol,hA,hB,hwholeA,hwholeB,hportA,hportB,hpackets,hbytes⟩ := h
  unfold Flow.shown
  rw [loadString_holds hA, loadString_holds hB, hwholeA, hwholeB, huse, hprotocol, hportA, hportB, hpackets, hbytes]
  rfl

/-- The slots in use, in the order of the table. -/
def usedSlots (out : Stats) : List Flow := out.flows.filter Flow.inUse

section Report
variable {stats : Netscope.Stats} {out : Stats} (h : StatsHold stats out)
include h

theorem usedSlots_hold : List.Forall₂ FlowHolds (usedFlows stats) (usedSlots out) := by
  apply List.rel_filter _ h.flows
  intro f slot hslot
  dsimp only
  rw [hslot.inUse]

theorem usedSlots_shown : (usedSlots out).map Flow.shown = usedFlows stats := by
  have hused := usedSlots_hold h
  generalize usedFlows stats = fs, usedSlots out = slots at hused
  induction hused with
  | nil => rfl
  | cons hslot _ ih => rw [List.map_cons, hslot.shown, ih]

theorem usedSlots_holds {slot : Flow} (hslot : slot ∈ usedSlots out) : FlowHolds slot.shown slot := by
  have hused := usedSlots_hold h
  generalize usedFlows stats = fs, usedSlots out = slots at hused hslot
  induction hused with
  | nil => cases hslot
  | cons hfirst _ ih =>
    rcases List.mem_cons.mp hslot with rfl | hrest
    · rw [hfirst.shown]
      exact hfirst
    · exact ih hrest

end Report

section Entries
variable {lib : PrintLibrary} (hlib : lib.Terminated)
include hlib

/-- The functional library that lists the flows of `out` in the order of `lib`. -/
def PrintLibrary.listing (lib : PrintLibrary) (out : Stats) : Netscope.PrintLibrary :=
  ⟨lib.scaled,lib.percent,Ranking.via lib.qsort Flow.shown (usedSlots out)⟩

theorem printConversation_eq (out : Stats) {f : Netscope.Flow} {slot : Flow} (h : FlowHolds f slot)
    {sorted : List (Option Flow)} {i : ℕ} (hi : sorted[i]? = some (some slot)) :
    printConversation lib sorted i = .ok (Netscope.printConversation (lib.listing out) i f) := by
  obtain ⟨bytes,hformat,hload⟩ := nsFormatBytes_eq hlib (lib.listing out).qsort f.bytes (fresh_length 32)
  unfold printConversation Netscope.printConversation
  simp only [element, hi, ok_bind, use_some, h.bytes, hformat, hload, loadString_holds h.addrA, loadString_holds h.addrB,
    h.portA, h.portB, h.protocol, h.packets]
  rfl

/-- The entries of the first pointers, which all point to flows. -/
theorem printEntries_eq (out : Stats) {slots : List Flow} (rest : List (Option Flow)) {m : ℕ} (hm : m ≤ slots.length)
    (h : ∀ slot ∈ slots, FlowHolds slot.shown slot) :
    (List.range m).mapM (printConversation lib (slots.map some ++ rest)) =
      .ok (((slots.map Flow.shown).take m).mapIdx (Netscope.printConversation (lib.listing out))) := by
  have hentry : ∀ i ∈ List.range m, printConversation lib (slots.map some ++ rest) i =
      .ok ((slots[i]?.map fun slot => Netscope.printConversation (lib.listing out) i slot.shown).getD []) := by
    intro i hi
    have hlt : i < slots.length := (List.mem_range.mp hi).trans_le hm
    have hget : (slots.map some ++ rest)[i]? = some (some slots[i]) := by
      rw [List.getElem?_append_left (by rwa [List.length_map]), List.getElem?_map, List.getElem?_eq_getElem hlt]
      rfl
    rw [printConversation_eq hlib out (h _ (List.getElem_mem hlt)) hget, List.getElem?_eq_getElem hlt]
    rfl
  rw [mapM_ok hentry]
  refine congrArg Except.ok (List.ext_getElem ?_ ?_)
  · simp [hm]
  · intro i h₁ h₂
    have hlt : i < slots.length := by
      rw [List.length_map, List.length_range] at h₁
      omega
    simp [List.getElem?_eq_getElem hlt]

end Entries

theorem mapM_use {α : Type} (xs : List α) : (xs.map some).mapM use = (.ok xs : Exec (List α)) := by
  induction xs with
  | nil => rfl
  | cons x xs ih =>
    rw [List.map_cons, List.mapM_cons, use_some, ok_bind, ih]
    rfl

theorem sortPointers_eq (lib : PrintLibrary) {sorted : List (Option Flow)} {n : ℕ} (hn : n ≤ sorted.length)
    {flows : List Flow} (h : sorted.take n = flows.map some) :
    sortPointers lib sorted n = .ok ((lib.qsort compareFlowPtrsDesc flows).map some ++ sorted.drop n) := by
  rw [sortPointers, if_pos hn, h, mapM_use]
  rfl

section Listing
variable {lib : PrintLibrary} (hlib : lib.Terminated) (hsort : Ranking.Sorts lib.qsort) {stats : Netscope.Stats}
  {out : Stats} (h : StatsHold stats out)
include hlib hsort h

/-- The conversations of the report are those of the functional model in the library's order. -/
theorem printConversations_eq :
    printConversations lib out.flows = .ok ([newline] ++ field "Top conversations:" [] ++ [newline] ++
      ((topConversations (lib.listing out) stats).mapIdx (Netscope.printConversation (lib.listing out))).flatten) := by
  have hsize : out.flows.length = maxFlows := by rw [← h.flows.length_eq, Vector.length_toList]
  obtain ⟨sorted,n,hfold,hcollected⟩ := collectFlow_collected out.flows (by rw [hsize]; norm_num) le_rfl
  rw [hsize] at hfold
  have hcount : n = (usedSlots out).length := by rw [hcollected.count, List.take_length, usedSlots]
  have hpointers : sorted.take n = (usedSlots out).map some := by
    rw [hcollected.pointers, List.take_length, usedSlots]
  have hroom : n ≤ sorted.length := by
    rw [hcollected.length, hcount]
    exact List.length_filter_le _ _
  have hperm : (lib.qsort compareFlowPtrsDesc (usedSlots out)).Perm (usedSlots out) :=
    hsort.perm (TopConversations.compareFlowPtrsDesc_consistent.comap Flow.shown) (usedSlots out)
  have hused : (usedFlows stats).length = n := by rw [← usedSlots_shown h, List.length_map, hcount]
  have hlisted : topConversations (lib.listing out) stats =
      ((lib.qsort compareFlowPtrsDesc (usedSlots out)).map Flow.shown).take (if n < 10 then n else 10) := by
    have hvia := Ranking.via_map lib.qsort Flow.shown (usedSlots out) Netscope.compareFlowPtrsDesc
    rw [usedSlots_shown h] at hvia
    unfold topConversations
    rw [hused]
    exact congrArg (List.take _) hvia
  have hshown : (if n < 10 then n else 10) ≤ (lib.qsort compareFlowPtrsDesc (usedSlots out)).length := by
    rw [hperm.length_eq, ← hcount]
    split <;> omega
  have hentries := printEntries_eq hlib out (sorted.drop n) hshown fun slot hslot =>
    usedSlots_holds h (hperm.mem_iff.mp hslot)
  unfold printConversations
  rw [hfold, ok_bind]
  dsimp only
  rw [sortPointers_eq lib hroom hpointers, ok_bind, hentries, hlisted]
  rfl

/-- The whole report. -/
theorem nsStatsPrint_report (duration : Bytes) :
    nsStatsPrint lib out duration = .ok (Netscope.nsStatsPrint (lib.listing out) stats duration) := by
  have htotals : printTotals lib out.counters duration = .ok (Netscope.printTotals (lib.listing out) stats duration) := by
    rw [printTotals_eq hlib (lib.listing out).qsort, h.counters]
    rfl
  have hprotocols : printProtocols lib.conversions out.counters = printProtocols (lib.listing out) stats := by
    rw [h.counters]
    rfl
  have hflows : out.counters.flowCount = stats.flowCount := by rw [h.counters]
  unfold nsStatsPrint Netscope.nsStatsPrint
  rw [htotals, ok_bind, hprotocols, hflows, printConversations_eq hlib hsort h]
  split
  · rw [List.append_nil]
    rfl
  · rfl

end Listing

/-! ## Runs -/

/-- The streams and the statistics after one more frame, as `handle_packet` leaves them: the
packet is counted before it is printed. -/
def runStep (cal : Calendar) (opts : OutputOptions) (s : Stats × Bytes) (c : Capture) : Exec (Stats × Bytes) := do
  let pkt ← nsPacketParse c.data c.data.length c.originalLength c.timestamp c.number c.linkType
  let stats ← nsStatsUpdate s.1 pkt
  let text ← nsOutputPacket cal pkt opts
  return (stats,s.2 ++ text)

/-- A run over frames and the report at its end. -/
def runAndReport (cal : Calendar) (lib : PrintLibrary) (opts : OutputOptions) (captures : List Capture)
    (duration : Bytes) : Exec Bytes := do
  let (stats,text) ← captures.foldlM (runStep cal opts) (nsStatsInit,[])
  return text ++ (← nsStatsPrint lib stats duration)

/-- Both address arrays of a slot hold a terminated text. -/
def Flow.Terminated (slot : Flow) : Prop := ∃ a b, Holds addrSize a slot.addrA ∧ Holds addrSize b slot.addrB

theorem StatsHold.terminated {stats : Netscope.Stats} {out : Stats} (h : StatsHold stats out) :
    ∀ slot ∈ out.flows, slot.Terminated := by
  intro slot hslot
  obtain ⟨i,hi,rfl⟩ := List.getElem_of_mem hslot
  have hflow := h.flows.get (by rwa [h.flows.length_eq]) hi
  exact ⟨_,_,hflow.addrA,hflow.addrB⟩

section Runs
variable {cal : Calendar} {clock : Clock}

/-- The state of a run over the frames so far. -/
structure RunHolds (clock : Clock) (opts : OutputOptions) (seen : List Capture) (s : Stats × Bytes) : Prop where
  stats : StatsHold (FlowTable.runStats (seen.map Capture.packet)) s.1
  text : s.2 = (seen.map fun c => Netscope.nsOutputPacket clock c.packet opts).flatten

theorem runStep_holds (opts : OutputOptions) {seen : List Capture} {s : Stats × Bytes} (h : RunHolds clock opts seen s)
    {c : Capture} (hdata : c.data.length + 16 ≤ 2 ^ 64) (htime : Converts cal clock c.timestamp.seconds) :
    ∃ s', runStep cal opts s c = .ok s' ∧ RunHolds clock opts (seen ++ [c]) s' := by
  obtain ⟨out,hparse,hrep,hprint⟩ := parsed_printed cal clock c hdata htime opts
  have hcount : (FlowTable.runStats (seen.map Capture.packet)).flowCount ≤ maxFlows := by
    rw [TopConversations.flowCount_eq, FlowTable.firstKeys]
    exact List.length_take_le _ _
  obtain ⟨stats,hupdate,hstats⟩ := nsStatsUpdate_holds hrep (walkRule_taggedOf c).packet.toMembersTagged h.stats hcount
  refine ⟨(stats,s.2 ++ Netscope.nsOutputPacket clock c.packet opts),?_,?_,?_⟩
  · rw [runStep, hparse, ok_bind, hupdate, ok_bind, hprint]
    rfl
  · rw [List.map_append, FlowTable.runStats, List.foldl_append, List.map_singleton, List.foldl_cons, List.foldl_nil]
    exact hstats
  · rw [h.text, List.map_append, List.flatten_append]
    simp

/-- By induction over the frames, the state of a run holds what it should. -/
theorem run_holds (opts : OutputOptions) (captures : List Capture) (hdata : ∀ c ∈ captures, c.data.length + 16 ≤ 2 ^ 64)
    (htime : ∀ c ∈ captures, Converts cal clock c.timestamp.seconds) :
    ∃ s, captures.foldlM (runStep cal opts) (nsStatsInit,[]) = .ok s ∧ RunHolds clock opts captures s := by
  have hstart : RunHolds clock opts [] (nsStatsInit,[]) := ⟨nsStatsInit_holds,rfl⟩
  have hseen : captures.foldl (fun seen c => seen ++ [c]) [] = captures := by simp [← List.flatMap_def]
  have hrun := foldlM_related (f := runStep cal opts) (g := fun seen c => seen ++ [c]) captures hstart
    fun seen s c hc h => runStep_holds opts h (hdata c hc) (htime c hc)
  rwa [hseen] at hrun

end Runs

/-- In a whole run over frames whose times the C library can convert, nothing undefined is done,
neither by a packet nor by the report at its end, every slot of the flow table holds two
terminated texts after any number of frames, and the text is that of the functional model. -/
theorem runAndReport_no_fault (cal : Calendar) (clock : Clock) (lib : PrintLibrary) (opts : OutputOptions)
    (captures : List Capture) (duration : Bytes) (hdata : ∀ c ∈ captures, c.data.length + 16 ≤ 2 ^ 64)
    (htime : ∀ c ∈ captures, Converts cal clock c.timestamp.seconds) (hlib : lib.Terminated)
    (hsort : Ranking.Sorts lib.qsort) :
    (∀ seen, seen <+: captures → ∃ s, seen.foldlM (runStep cal opts) (nsStatsInit,[]) = .ok s ∧
      ∀ slot ∈ s.1.flows, slot.Terminated) ∧
    ∃ listing : Netscope.PrintLibrary, listing.scaled = lib.scaled ∧ listing.percent = lib.percent ∧
      Ranking.Sorts listing.qsort ∧ runAndReport cal lib opts captures duration =
        .ok ((captures.map fun c => Netscope.nsOutputPacket clock c.packet opts).flatten ++
          Netscope.nsStatsPrint listing (FlowTable.runStats (captures.map Capture.packet)) duration) := by
  constructor
  · intro seen hseen
    obtain ⟨s,hrun,hholds⟩ := run_holds opts seen (fun c hc => hdata c (hseen.subset hc)) fun c hc =>
      htime c (hseen.subset hc)
    exact ⟨s,hrun,hholds.stats.terminated⟩
  · obtain ⟨⟨stats,text⟩,hrun,hholds⟩ := run_holds opts captures hdata htime
    refine ⟨lib.listing stats,rfl,rfl,hsort.via _ _,?_⟩
    rw [runAndReport, hrun, ok_bind]
    dsimp only
    rw [nsStatsPrint_report hlib hsort hholds.stats, ok_bind, ← hholds.text]
    rfl

/-- A C library whose conversions are of one digit and whose `qsort` merges. -/
def plainLibrary : PrintLibrary where
  scaled _ _ := ascii "1"
  percent _ _ := ascii "1"
  qsort cmp xs := xs.mergeSort fun a b => cmp a b ≤ 0

/-- Two queries from one host. -/
def twoFrames : List Capture := [queryFor (.replicate 5 97),queryFor (.replicate 5 98)]

theorem runAndReport_no_fault_twoFrames :
    (∀ seen, seen <+: twoFrames →
      ∃ s, seen.foldlM (runStep noonCalendar ⟨true,true,false,true,.text⟩) (nsStatsInit,[]) = .ok s ∧
        ∀ slot ∈ s.1.flows, slot.Terminated) ∧
    ∃ listing : Netscope.PrintLibrary, listing.scaled = plainLibrary.scaled ∧ listing.percent = plainLibrary.percent ∧
      Ranking.Sorts listing.qsort ∧
      runAndReport noonCalendar plainLibrary ⟨true,true,false,true,.text⟩ twoFrames (ascii "0.00") =
        .ok ((twoFrames.map fun c => Netscope.nsOutputPacket noon c.packet ⟨true,true,false,true,.text⟩).flatten ++
          Netscope.nsStatsPrint listing (FlowTable.runStats (twoFrames.map Capture.packet)) (ascii "0.00")) := by
  apply runAndReport_no_fault
  · intro c hc
    rcases List.mem_pair.mp hc with rfl | rfl <;> decide
  · exact fun c _ => noonCalendar_converts c.timestamp.seconds
  · intro bytes unit
    change (0 : UInt8) ∉ ascii "1"
    decide
  · exact Ranking.sorts_mergeSort

end Netscope.Checked
