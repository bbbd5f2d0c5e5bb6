import Mathlib.Algebra.Group.Prod
import Mathlib.Data.UInt
import Netscope.Library.OpenAddressing
import Netscope.Stats.FlowKey

/-! # The flow table refines a bounded map

`record_flow` is the insertion of an open-addressing table whose keys are the
canonical endpoint texts. Over every run from `ns_stats_init` the table represents
the map of capacity 1024 that accumulates packets and bytes under flow keys.
-/
namespace Netscope.FlowTable
open ByteString OpenAddressing Netscope.FlowKey

/-- The packets and bytes accumulated in a slot. -/
abbrev Volume := UInt64 × UInt64

def layout : Layout Flow Endpoints Volume where
  inUse slot := slot.inUse
  key slot := ⟨slot.protocol,cString slot.addrA,slot.portA,cString slot.addrB,slot.portB⟩
  value slot := (slot.packets,slot.bytes)

/-- The start of the probe sequence. -/
def home (e : Endpoints) : ℕ := (hashFlow e.proto e.addrA e.portA e.addrB e.portB).toNat % maxFlows

/-- The slots of the table by index. -/
def slots (stats : Stats) (i : Fin maxFlows) : Flow := stats.flows.get i

theorem slots_eq (stats : Stats) (i : Fin maxFlows) : slots stats i = stats.flows[i.val] := rfl

/-! ## One packet -/

section Record
variable {stats : Stats} {e : Endpoints} {bytes : UInt64}

theorem isFor_iff (hA : cString e.addrA = e.addrA) (hB : cString e.addrB = e.addrB) (slot : Flow) :
    slot.isFor e = true ↔ layout.inUse slot = true ∧ layout.key slot = e := by
  obtain ⟨proto,addrA,portA,addrB,portB⟩ := e
  simp only at hA hB
  simp only [Flow.isFor, strcmp_eq_zero, hA, hB, layout, Bool.and_eq_true, decide_eq_true_eq, Endpoints.mk.injEq]
  tauto

theorem slots_set (i : Fin maxFlows) (slot : Flow) (count : ℕ) :
    slots { stats with flows := stats.flows.set i slot, flowCount := count } = Function.update (slots stats) i slot := by
  funext j
  by_cases h : j = i
  · subst h
    simp [slots_eq]
  · have hne : i.val ≠ j.val := fun hv => h (Fin.ext hv.symm)
    simp [slots_eq, h, hne]

/-- The probe loop of `record_flow` is the probe of the library. -/
theorem recordFlowLoop_eq (hA : cString e.addrA = e.addrA) (hB : cString e.addrB = e.addrB) (start remaining i : ℕ) :
    recordFlowLoop stats e bytes start remaining i =
      match probe layout (slots stats) start e remaining i with
      | .found j => { stats with flows := stats.flows.set j ((slots stats j).addPacket bytes) }
      | .free j => { stats with flows := stats.flows.set j (Flow.start e bytes), flowCount := stats.flowCount + 1 }
      | .full => stats := by
  induction remaining generalizing i with
  | zero => rfl
  | succ remaining ih =>
    rw [recordFlowLoop, probe]
    have hiff := isFor_iff hA hB (slots stats (position maxFlows start i))
    by_cases hfor : (slots stats (position maxFlows start i)).isFor e = true
    · rw [if_pos (hiff.mp hfor)]
      exact if_pos hfor
    · rw [if_neg (fun h => hfor (hiff.mpr h))]
      refine (if_neg hfor).trans ?_
      by_cases huse : (slots stats (position maxFlows start i)).inUse = true
      · have hfree : ¬(!layout.inUse (slots stats (position maxFlows start i))) = true := by simp [layout, huse]
        rw [if_neg hfree]
        exact (if_neg hfree).trans (ih (i + 1))
      · have hfree : (!layout.inUse (slots stats (position maxFlows start i))) = true := by simp [layout, huse]
        rw [if_pos hfree]
        exact if_pos hfree

/-- Recording a flow is an insertion into the table. -/
theorem recordFlow_slots (hA : cString e.canonical.addrA = e.canonical.addrA)
    (hB : cString e.canonical.addrB = e.canonical.addrB) :
    slots (recordFlow stats e bytes) = (upsert layout (slots stats) (home e.canonical) e.canonical
        (fun slot => slot.addPacket bytes) (Flow.start e.canonical bytes)).1 ∧
      (recordFlow stats e bytes).flowCount = stats.flowCount + (upsert layout (slots stats) (home e.canonical)
        e.canonical (fun slot => slot.addPacket bytes) (Flow.start e.canonical bytes)).2 := by
  have hloop := @recordFlowLoop_eq stats e.canonical bytes hA hB (home e.canonical) maxFlows 0
  have hrec : recordFlow stats e bytes = recordFlowLoop stats e.canonical bytes (home e.canonical) maxFlows 0 := rfl
  rw [hrec, hloop, upsert]
  cases probe layout (slots stats) (home e.canonical) e.canonical maxFlows 0 with
  | found j => exact ⟨slots_set j _ stats.flowCount,rfl⟩
  | free j => exact ⟨slots_set j _ (stats.flowCount + 1),rfl⟩
  | full => exact ⟨rfl,rfl⟩

end Record

/-- The table and its counter represent a map. -/
structure Holds (stats : Stats) (m : List (Endpoints × Volume)) : Prop where
  wellProbed : WellProbed layout home (slots stats)
  represents : Represents layout (slots stats) m
  flowCount : stats.flowCount = m.length

theorem contributes {e : Endpoints} (hA : cString e.addrA = e.addrA) (hB : cString e.addrB = e.addrB)
    (hlenA : e.addrA.length < addrSize) (hlenB : e.addrB.length < addrSize) (bytes : UInt64) :
    Contributes layout e (1,bytes) (fun slot => slot.addPacket bytes) (Flow.start e bytes) where
  inUse _ := rfl
  key _ := rfl
  value _ := rfl
  freshInUse := rfl
  freshKey := by simp [layout, Flow.start, hA, hB, snprintf_of_lt hlenA, snprintf_of_lt hlenB]
  freshValue := rfl

/-- Recording a packet under a key is one contribution to the map. -/
theorem recordFlow_holds {stats : Stats} {m : List (Endpoints × Volume)} (h : Holds stats m) (proto : Proto)
    (a b : Endpoint) (bytes : UInt64) :
    Holds (recordFlow stats (endpointTexts proto a b) bytes)
      (BoundedMap.record maxFlows m (storedTexts (proto,s(a,b)),(1,bytes))) := by
  obtain ⟨c,d,hcd,_⟩ := storedTexts_shape (proto,s(a,b))
  rw [storedTexts_mk] at hcd ⊢
  have hA : cString (endpointTexts proto a b).canonical.addrA = (endpointTexts proto a b).canonical.addrA := by
    rw [hcd]
    exact cString_text c.1
  have hB : cString (endpointTexts proto a b).canonical.addrB = (endpointTexts proto a b).canonical.addrB := by
    rw [hcd]
    exact cString_text d.1
  have hc := contributes hA hB (by rw [hcd]; exact c.1.text_length_lt) (by rw [hcd]; exact d.1.text_length_lt) bytes
  obtain ⟨hslots,hcount⟩ := @recordFlow_slots stats (endpointTexts proto a b) bytes hA hB
  obtain ⟨hr,hlen⟩ := upsert_represents h.represents hc h.wellProbed
  refine ⟨?_,?_,?_⟩
  · rw [hslots]
    exact upsert_wellProbed hc h.wellProbed
  · rw [hslots]
    exact hr
  · rw [hcount, hlen, h.flowCount]

/-! ## Whole runs -/

theorem nsStatsInit_holds : Holds nsStatsInit [] := by
  have hfree : ∀ i, layout.inUse (slots nsStatsInit i) = false := by
    intro i
    simp [slots_eq, nsStatsInit, layout, Flow.zero]
  refine ⟨⟨?_,?_⟩,⟨?_,?_⟩,rfl⟩
  · intro i hi
    rw [hfree i] at hi
    cases hi
  · intro i j hi
    rw [hfree i] at hi
    cases hi
  · intro e
    simp [hfree]
  · simp [hfree]

theorem countPacket_flows (stats : Stats) (pkt : Packet) :
    (countPacket stats pkt).flows = stats.flows ∧ (countPacket stats pkt).flowCount = stats.flowCount := by
  have hnet : ∀ s, (countNetwork s pkt).flows = s.flows ∧ (countNetwork s pkt).flowCount = s.flowCount := by
    intro s
    unfold countNetwork
    cases pkt.networkProto with
    | ipv4 => exact ⟨rfl,rfl⟩
    | ipv6 => exact ⟨rfl,rfl⟩
    | arp => exact ⟨rfl,rfl⟩
    | _ => dsimp only; split <;> exact ⟨rfl,rfl⟩
  have htransport : ∀ s, (countTransport s pkt).flows = s.flows ∧ (countTransport s pkt).flowCount = s.flowCount := by
    intro s
    unfold countTransport
    cases pkt.transportProto <;> exact ⟨rfl,rfl⟩
  have hdns : ∀ s, (countDns s pkt).flows = s.flows ∧ (countDns s pkt).flowCount = s.flowCount := by
    intro s
    unfold countDns
    split <;> exact ⟨rfl,rfl⟩
  unfold countPacket
  rw [(hdns _).1, (hdns _).2, (htransport _).1, (htransport _).2, (hnet _).1, (hnet _).2]
  exact ⟨rfl,rfl⟩

theorem countPacket_holds {stats : Stats} {m : List (Endpoints × Volume)} (h : Holds stats m) (pkt : Packet) :
    Holds (countPacket stats pkt) m := by
  obtain ⟨hflows,hcount⟩ := countPacket_flows stats pkt
  have hslots : slots (countPacket stats pkt) = slots stats := by
    funext i
    simp only [slots, hflows]
  exact ⟨hslots ▸ h.wellProbed,hslots ▸ h.represents,hcount.trans h.flowCount⟩

/-- What a packet contributes to the table. -/
def contribution (pkt : Packet) : Option (Endpoints × Volume) :=
  (packetKey pkt).map fun k => (storedTexts k,(1,UInt64.ofNat pkt.capturedLength))

theorem nsStatsUpdate_eq (stats : Stats) (pkt : Packet) :
    nsStatsUpdate stats pkt = match packetEndpoints pkt with
      | some t => recordFlow (countPacket stats pkt) (endpointTexts t.1 t.2.1 t.2.2) (UInt64.ofNat pkt.capturedLength)
      | none => countPacket stats pkt := by
  unfold nsStatsUpdate
  rw [extractEndpoints_eq]
  cases packetEndpoints pkt <;> rfl

/-- One update is at most one contribution to the map. -/
theorem nsStatsUpdate_holds {stats : Stats} {m : List (Endpoints × Volume)} (h : Holds stats m) (pkt : Packet) :
    Holds (nsStatsUpdate stats pkt) ((contribution pkt).elim m (BoundedMap.record maxFlows m)) := by
  have hcount := countPacket_holds h pkt
  rw [nsStatsUpdate_eq, contribution, packetKey]
  cases packetEndpoints pkt with
  | none => exact hcount
  | some t => exact recordFlow_holds hcount t.1 t.2.1 t.2.2 _

/-- The statistics after a sequence of packets. -/
def runStats (pkts : List Packet) : Stats := pkts.foldl nsStatsUpdate nsStatsInit

theorem runStats_holds (pkts : List Packet) :
    Holds (runStats pkts) (BoundedMap.run maxFlows (pkts.filterMap contribution)) := by
  induction pkts using List.reverseRecOn with
  | nil => exact nsStatsInit_holds
  | append_singleton pkts pkt ih =>
    have hstep := nsStatsUpdate_holds ih pkt
    have hrun : runStats (pkts ++ [pkt]) = nsStatsUpdate (runStats pkts) pkt := by simp [runStats]
    rw [hrun, List.filterMap_append]
    cases hc : contribution pkt with
    | none =>
      rw [hc] at hstep
      simpa [hc] using hstep
    | some e =>
      rw [hc] at hstep
      simpa [hc, BoundedMap.run_append] using hstep

/-! ## The slots of a key -/

theorem contribution_keys (pkts : List Packet) :
    (pkts.filterMap contribution).map Prod.fst = (pkts.filterMap packetKey).map storedTexts := by
  rw [List.map_filterMap, List.map_filterMap]
  congr 1
  funext pkt
  simp only [contribution, Option.map_map]
  rfl

/-- The contributions of a run under a key count its packets and sum its bytes. -/
theorem contribution_total (pkts : List Packet) (k : Key) :
    BoundedMap.total (storedTexts k) (pkts.filterMap contribution) =
      (UInt64.ofNat (pkts.filter (fun pkt => packetKey pkt = some k)).length,
        UInt64.ofNat ((pkts.filter (fun pkt => packetKey pkt = some k)).map Packet.capturedLength).sum) := by
  induction pkts using List.reverseRecOn with
  | nil => rfl
  | append_singleton pkts pkt ih =>
    rw [List.filterMap_append, List.filter_append]
    cases hkey : packetKey pkt with
    | none =>
      have hc : contribution pkt = none := by rw [contribution, hkey]; rfl
      simpa [hc, hkey] using ih
    | some k' =>
      have hc : contribution pkt = some (storedTexts k',(1,UInt64.ofNat pkt.capturedLength)) := by
        rw [contribution, hkey]
        rfl
      rw [show List.filterMap contribution [pkt] = [(storedTexts k',(1,UInt64.ofNat pkt.capturedLength))] by simp [hc],
        BoundedMap.total_append, ih]
      by_cases hkk : k' = k
      · subst hkk
        simp [hkey]
      · have hne : storedTexts k' ≠ storedTexts k := fun h => hkk (storedTexts_injective h)
        simp [hkey, hkk, hne]

/-! ## The slots after a run -/

/-- The keys that find room in the table: the first 1024 distinct ones. -/
def firstKeys (pkts : List Packet) : List Key := (pkts.filterMap packetKey).eraseDups.take maxFlows

section Slots
variable {pkts : List Packet} {i : Fin maxFlows} {k : Key}

theorem run_contribution_keys (pkts : List Packet) :
    (BoundedMap.run maxFlows (pkts.filterMap contribution)).map Prod.fst = (firstKeys pkts).map storedTexts := by
  rw [BoundedMap.run_keys, contribution_keys, BoundedMap.eraseDups_map storedTexts_injective, firstKeys, List.map_take]

theorem slot_stored (hi : (slots (runStats pkts) i).inUse = true) :
    ∃ k ∈ firstKeys pkts, layout.key (slots (runStats pkts) i) = storedTexts k := by
  have hfst : layout.key (slots (runStats pkts) i) ∈ (firstKeys pkts).map storedTexts := by
    rw [← run_contribution_keys]
    exact (runStats_holds pkts).represents.mem_keys_iff.mpr ⟨i,hi,rfl⟩
  obtain ⟨k,hk,he⟩ := List.mem_map.mp hfst
  exact ⟨k,hk,he.symm⟩

theorem exists_slot (hk : k ∈ firstKeys pkts) :
    ∃ i, (slots (runStats pkts) i).inUse = true ∧ layout.key (slots (runStats pkts) i) = storedTexts k := by
  apply (runStats_holds pkts).represents.mem_keys_iff.mp
  rw [run_contribution_keys]
  exact List.mem_map_of_mem hk

/-- A slot holds the volume of all packets of the run under its key. -/
theorem slot_volume (hi : (slots (runStats pkts) i).inUse = true)
    (he : layout.key (slots (runStats pkts) i) = storedTexts k) :
    (slots (runStats pkts) i).packets = UInt64.ofNat (pkts.filter (fun pkt => packetKey pkt = some k)).length ∧
      (slots (runStats pkts) i).bytes =
        UInt64.ofNat ((pkts.filter (fun pkt => packetKey pkt = some k)).map Packet.capturedLength).sum := by
  have hmem := ((runStats_holds pkts).represents.mem
    (layout.key (slots (runStats pkts) i),layout.value (slots (runStats pkts) i))).mpr ⟨i,hi,rfl,rfl⟩
  have htotal := BoundedMap.run_total hmem
  rw [he, contribution_total] at htotal
  exact Prod.mk.inj htotal

end Slots

/-! ## Exchanged endpoints -/

end Netscope.FlowTable
