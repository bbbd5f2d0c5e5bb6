import Netscope.Dns.Transports
import Netscope.Stats.Accounting
import Netscope.Stats.TopConversations
import Netscope.Text.TerminalOutput

/-! # The report does not depend on the order of the packets

The counters add weights, and the flow table accumulates volumes under keys. The order
of the packets shows only in the layout of the table, which decides ties between
conversations of equally many bytes, and in which conversations still find room.
-/
namespace Netscope.PacketOrder
open ByteString Numerals OpenAddressing FlowKey FlowTable Accounting TopConversations

/-! ## Counters -/

theorem addWeights_comm (stats : Stats) (p q : Packet) :
    addWeights (addWeights stats p) q = addWeights (addWeights stats q) p := by
  simp only [addWeights, add_right_comm]

/-- Apart from the table, the statistics are the sum of the weights. -/
theorem runStats_counters (pkts : List Packet) :
    ∃ flows flowCount, runStats pkts = { pkts.foldl addWeights nsStatsInit with flows := flows, flowCount := flowCount } := by
  induction pkts using List.reverseRecOn with
  | nil => exact ⟨_,_,rfl⟩
  | append_singleton pkts pkt ih =>
    obtain ⟨flows,flowCount,hrun⟩ := ih
    obtain ⟨flows',flowCount',hstep⟩ := nsStatsUpdate_counters (runStats pkts) pkt
    refine ⟨flows',flowCount',?_⟩
    rw [runStats, List.foldl_append, List.foldl_cons, List.foldl_nil, List.foldl_append, List.foldl_cons, List.foldl_nil,
      ← runStats, hstep, hrun]
    rfl

section Order
variable {pkts pkts' : List Packet} (h : pkts.Perm pkts') (lib : PrintLibrary)
include h

theorem foldl_addWeights_perm : pkts.foldl addWeights nsStatsInit = pkts'.foldl addWeights nsStatsInit :=
  h.foldl_eq' (fun p _ q _ stats => addWeights_comm stats p q) nsStatsInit

theorem printTotals_perm (duration : Bytes) :
    printTotals lib (runStats pkts) duration = printTotals lib (runStats pkts') duration := by
  obtain ⟨_,_,hrun⟩ := runStats_counters pkts
  obtain ⟨_,_,hrun'⟩ := runStats_counters pkts'
  rw [hrun, hrun', foldl_addWeights_perm h]
  rfl

theorem printProtocols_perm : printProtocols lib (runStats pkts) = printProtocols lib (runStats pkts') := by
  obtain ⟨_,_,hrun⟩ := runStats_counters pkts
  obtain ⟨_,_,hrun'⟩ := runStats_counters pkts'
  rw [hrun, hrun', foldl_addWeights_perm h]
  rfl

end Order

/-! ## The table -/

/-- What the report shows of a slot. -/
def seen (slot : Flow) : Endpoints × Volume := (layout.key slot,layout.value slot)

section Slots
variable {pkts pkts' : List Packet}

theorem nodup_seen (pkts : List Packet) : ((usedFlows (runStats pkts)).map seen).Nodup := by
  rw [usedFlows_eq, List.map_map]
  apply List.Nodup.map_on _ ((List.nodup_finRange maxFlows).filter _)
  intro i hi j hj hij
  exact (runStats_holds pkts).wellProbed.distinct i j (List.mem_filter.mp hi).2 (List.mem_filter.mp hj).2
    (congrArg Prod.fst hij)

/-- The slots in use show the entries of the map. -/
theorem seen_perm (pkts : List Packet) :
    ((usedFlows (runStats pkts)).map seen).Perm (BoundedMap.run maxFlows (pkts.filterMap contribution)) := by
  apply (List.perm_ext_iff_of_nodup (nodup_seen pkts) (BoundedMap.run_keys_nodup maxFlows _).of_map).mpr
  intro x
  rw [(runStats_holds pkts).represents.mem x, List.mem_map]
  constructor
  · rintro ⟨slot,hslot,rfl⟩
    obtain ⟨i,huse,rfl⟩ := mem_usedFlows.mp hslot
    exact ⟨i,huse,rfl,rfl⟩
  · rintro ⟨i,huse,hkey,hvalue⟩
    exact ⟨slots (runStats pkts) i,mem_usedFlows.mpr ⟨i,huse,rfl⟩,Prod.ext hkey hvalue⟩

theorem length_conversations (pkts : List Packet) :
    ((pkts.filterMap contribution).map Prod.fst).eraseDups.length = (conversations pkts).length := by
  rw [contribution_keys, BoundedMap.eraseDups_map storedTexts_injective, List.length_map, conversations]

theorem usedFlows_perm (h : pkts.Perm pkts') (hroom : (conversations pkts).length ≤ maxFlows) :
    ((usedFlows (runStats pkts)).map seen).Perm ((usedFlows (runStats pkts')).map seen) := by
  have hrun := BoundedMap.run_perm (h.filterMap contribution) ((length_conversations pkts).trans_le hroom)
  exact (seen_perm pkts).trans (hrun.trans (seen_perm pkts').symm)

/-- The captured bytes of a conversation as a slot counts them. -/
def countedBytes (pkts : List Packet) (k : Key) : UInt64 := UInt64.ofNat (bytesOf pkts k)

/-- The rank of an entry. -/
def rank (x : Endpoints × Volume) : ℕ := x.2.2.toNat

theorem run_ranks (pkts : List Packet) :
    (BoundedMap.run maxFlows (pkts.filterMap contribution)).map rank =
      (firstKeys pkts).map fun k => (countedBytes pkts k).toNat := by
  have htotal : (BoundedMap.run maxFlows (pkts.filterMap contribution)).map rank =
      ((BoundedMap.run maxFlows (pkts.filterMap contribution)).map Prod.fst).map fun e =>
        (BoundedMap.total e (pkts.filterMap contribution)).2.toNat := by
    rw [List.map_map]
    apply List.map_congr_left
    intro x hx
    rw [rank, BoundedMap.run_total hx]
    rfl
  rw [htotal, run_contribution_keys, List.map_map]
  apply List.map_congr_left
  intro k _
  rw [Function.comp_apply, contribution_total]
  rfl

theorem nodup_ranks (hties : ((conversations pkts).map (countedBytes pkts)).Nodup) :
    (((usedFlows (runStats pkts)).map seen).map rank).Nodup := by
  have hfirst : ((firstKeys pkts).map (countedBytes pkts)).Nodup :=
    hties.sublist ((List.take_sublist _ _).map _)
  rw [((seen_perm pkts).map rank).nodup_iff, run_ranks]
  have hinj := hfirst.map (fun a b => UInt64.toNat_inj.mp)
  rwa [List.map_map] at hinj

end Slots

/-! ## The list of conversations -/

section Text
variable (lib : PrintLibrary)

theorem printConversation_seen (i : ℕ) {f g : Flow} (h : seen f = seen g) :
    printConversation lib i f = printConversation lib i g := by
  simp only [seen, layout, Prod.mk.injEq, Endpoints.mk.injEq] at h
  obtain ⟨⟨hproto,hA,hpA,hB,hpB⟩,hpackets,hbytes⟩ := h
  rw [printConversation, hproto, hA, hpA, hB, hpB, hpackets, hbytes]
  rfl

theorem printListed_seen {xs ys : List Flow} (h : xs.map seen = ys.map seen) : printListed lib xs = printListed lib ys := by
  have hlen : xs.length = ys.length := by simpa using congrArg List.length h
  have hempty : xs = [] ↔ ys = [] := by rw [← List.length_eq_zero_iff, hlen, List.length_eq_zero_iff]
  have hmap : xs.mapIdx (printConversation lib) = ys.mapIdx (printConversation lib) := by
    apply List.ext_getElem (by simpa using hlen)
    intro i hi hi'
    rw [List.getElem_mapIdx, List.getElem_mapIdx]
    apply printConversation_seen
    rw [List.length_mapIdx] at hi hi'
    have hget := List.getElem_of_eq h (by rwa [List.length_map])
    rwa [List.getElem_map, List.getElem_map] at hget
  simp only [printListed, hempty, hmap]

theorem listedConversations_seen {lib : PrintLibrary} (hsort : Ranking.Sorts lib.qsort) {pkts pkts' : List Packet}
    (h : pkts.Perm pkts') (hroom : (conversations pkts).length ≤ maxFlows)
    (hties : ((conversations pkts).map (countedBytes pkts)).Nodup) :
    (listedConversations lib (runStats pkts)).map seen = (listedConversations lib (runStats pkts')).map seen := by
  have hranked : (lib.qsort compareFlowPtrsDesc (usedFlows (runStats pkts))).map seen =
      (lib.qsort compareFlowPtrsDesc (usedFlows (runStats pkts'))).map seen := by
    apply hsort.map_eq compareFlowPtrsDesc_consistent _ (usedFlows_perm h hroom) (nodup_ranks hties)
    exact fun f g => compareFlowPtrsDesc_le f g
  rw [listedConversations_eq hsort, listedConversations_eq hsort, List.map_take, hranked, List.map_take]

end Text

/-! ## Runs -/

/-- A packet without its number and its time. -/
def anonymous (pkt : Packet) : Packet := { pkt with number := 0, timestamp := ⟨0,0⟩ }

/-- The same packets up to their order, their numbers and their times. -/
def SameTraffic (pkts pkts' : List Packet) : Prop := (pkts.map anonymous).Perm (pkts'.map anonymous)

theorem countPacket_anonymous (stats : Stats) (pkt : Packet) : countPacket stats (anonymous pkt) = countPacket stats pkt := by
  have htotals : countTotals stats (anonymous pkt) = countTotals stats pkt := rfl
  have hnetwork (s : Stats) : countNetwork s (anonymous pkt) = countNetwork s pkt := rfl
  have htransport (s : Stats) : countTransport s (anonymous pkt) = countTransport s pkt := rfl
  have hdns (s : Stats) : countDns s (anonymous pkt) = countDns s pkt := rfl
  rw [countPacket, htotals, hnetwork, htransport, hdns, countPacket]

theorem nsStatsUpdate_anonymous (stats : Stats) (pkt : Packet) : nsStatsUpdate stats (anonymous pkt) = nsStatsUpdate stats pkt := by
  have hends : extractEndpoints (anonymous pkt) = extractEndpoints pkt := rfl
  rw [nsStatsUpdate, countPacket_anonymous, hends, nsStatsUpdate]
  rfl

theorem runStats_anonymous (pkts : List Packet) : runStats (pkts.map anonymous) = runStats pkts := by
  simp only [runStats, List.foldl_map, nsStatsUpdate_anonymous]

theorem conversations_anonymous (pkts : List Packet) : conversations (pkts.map anonymous) = conversations pkts := by
  rw [conversations, List.filterMap_map]
  rfl

theorem countedBytes_anonymous (pkts : List Packet) : countedBytes (pkts.map anonymous) = countedBytes pkts := by
  funext k
  rw [countedBytes, bytesOf, packetsOf, List.filter_map, List.map_map]
  rfl

/-- The report of the same traffic in another order: the totals and the protocols are the
same, the table has the same entries as long as they all found room, and the whole text
is the same if no two conversations tie. -/
theorem nsStatsPrint_order (lib : PrintLibrary) (hsort : Ranking.Sorts lib.qsort) (duration : Bytes)
    (pkts pkts' : List Packet) (h : SameTraffic pkts pkts') :
    printTotals lib (runStats pkts) duration = printTotals lib (runStats pkts') duration ∧
      printProtocols lib (runStats pkts) = printProtocols lib (runStats pkts') ∧
      ((conversations pkts).length ≤ 1024 →
        ((usedFlows (runStats pkts)).map seen).Perm ((usedFlows (runStats pkts')).map seen) ∧
        (((conversations pkts).map (countedBytes pkts)).Nodup →
          nsStatsPrint lib (runStats pkts) duration = nsStatsPrint lib (runStats pkts') duration)) := by
  have htotals := printTotals_perm h lib duration
  have hprotocols := printProtocols_perm h lib
  rw [runStats_anonymous, runStats_anonymous] at htotals hprotocols
  refine ⟨htotals,hprotocols,fun hroom => ⟨?_,fun hties => ?_⟩⟩
  · have hused := usedFlows_perm h (by rwa [conversations_anonymous])
    rwa [runStats_anonymous, runStats_anonymous] at hused
  · have hlisted := listedConversations_seen hsort h (by rwa [conversations_anonymous])
      (by rwa [conversations_anonymous, countedBytes_anonymous])
    rw [runStats_anonymous, runStats_anonymous] at hlisted
    rw [nsStatsPrint_eq hsort, nsStatsPrint_eq hsort, htotals, hprotocols, printListed_seen lib hlisted]

/-- A segment, then a query and its answer: two conversations of 73 and of 118 bytes. -/
def threePackets : List Packet := twoConversations.map Capture.packet

theorem nsStatsPrint_order_threePackets :
    SameTraffic threePackets threePackets.reverse ∧
      (conversations threePackets).map (countedBytes threePackets) = [73,118] ∧
      nsStatsPrint mergingLibrary (runStats threePackets) (ascii "0.00") =
        nsStatsPrint mergingLibrary (runStats threePackets.reverse) (ascii "0.00") := by
  have hsame : SameTraffic threePackets threePackets.reverse := (List.reverse_perm threePackets).symm.map anonymous
  have hcounted : (conversations threePackets).map (countedBytes threePackets) = [73,118] := by decide +kernel
  have hroom : (conversations threePackets).length ≤ 1024 := by decide +kernel
  have hties : ((conversations threePackets).map (countedBytes threePackets)).Nodup := by
    rw [hcounted]
    decide
  have horder := nsStatsPrint_order mergingLibrary Ranking.sorts_mergeSort (ascii "0.00") _ _ hsame
  exact ⟨hsame,hcounted,(horder.2.2 hroom).2 hties⟩

end Netscope.PacketOrder
