import Netscope.Checked.PrintedPackets
import Netscope.Checked.Statistics
import Netscope.Stats.Accounting

/-! # Counting never faults

Every slot of the flow table holds two terminated texts, those of the functional model,
before and after each packet, so that a packet is counted without an undefined access.
-/
namespace Netscope.Checked
open ByteString PartialMemory Numerals FlowKey

/-! ## Strings -/

section Strings
variable {m n : ℕ} {a b : Bytes} {bufA bufB : Cells}

theorem cString_cons {x : UInt8} (h : x ≠ 0) (xs : Bytes) : cString (x :: xs) = x :: cString xs :=
  List.takeWhile_cons_of_pos (by simpa using h)

theorem cString_zero (xs : Bytes) : cString (0 :: xs) = [] := List.takeWhile_cons_of_neg (by simp)

theorem strcmp_holding (a b : Bytes) (restA restB : Cells) :
    strcmp (holding (a ++ [0]) restA) (holding (b ++ [0]) restB) = .ok (Netscope.strcmp a b) := by
  induction a generalizing b with
  | nil =>
    cases b with
    | nil => rfl
    | cons y b =>
      change strcmp (some 0 :: restA) (some y :: holding (b ++ [0]) restB) = .ok (compareBytes [] (cString (y :: b)))
      by_cases hy : y = 0
      · rw [hy, cString_zero]
        rfl
      · rw [strcmp, if_neg (Ne.symm hy), cString_cons hy, compareBytes]
        simp
  | cons x a ih =>
    cases b with
    | nil =>
      change strcmp (some x :: holding (a ++ [0]) restA) (some 0 :: restB) = .ok (compareBytes (cString (x :: a)) [])
      by_cases hx : x = 0
      · rw [hx, cString_zero]
        rfl
      · rw [strcmp, if_neg hx, cString_cons hx, compareBytes]
        simp
    | cons y b =>
      change strcmp (some x :: holding (a ++ [0]) restA) (some y :: holding (b ++ [0]) restB) =
        .ok (compareBytes (cString (x :: a)) (cString (y :: b)))
      rw [strcmp]
      by_cases hxy : x = y
      · subst hxy
        by_cases hx : x = 0
        · rw [if_pos rfl, if_pos hx, hx, cString_zero, cString_zero]
          rfl
        · rw [if_pos rfl, if_neg hx, ih b, cString_cons hx, cString_cons hx, compareBytes, if_pos rfl]
          rfl
      · rw [if_neg hxy]
        by_cases hx : x = 0
        · rw [hx, cString_zero, cString_cons (fun hy => hxy (hx.trans hy.symm)), compareBytes]
          simp
        · by_cases hy : y = 0
          · rw [hy, cString_zero, cString_cons hx, compareBytes]
            simp
          · rw [cString_cons hx, cString_cons hy, compareBytes, if_neg hxy]
            rfl

theorem strcmp_eq (hA : Holds m a bufA) (hB : Holds n b bufB) : strcmp bufA bufB = .ok (Netscope.strcmp a b) := by
  obtain ⟨_,restA,rfl⟩ := hA
  obtain ⟨_,restB,rfl⟩ := hB
  exact strcmp_holding a b restA restB

theorem hashString_eq (hA : Holds m a bufA) (h : UInt32) : hashString bufA h = .ok ((cString a).foldl hashStep h) := by
  obtain ⟨hlen,rest,rfl⟩ := hA
  clear hlen
  induction a generalizing h with
  | nil => rfl
  | cons x a ih =>
    change hashString (some x :: holding (a ++ [0]) rest) h = _
    by_cases hx : x = 0
    · rw [hx, cString_zero]
      rfl
    · rw [hashString, if_neg hx, ih, cString_cons hx, List.foldl_cons]

end Strings

/-! ## What the arrays hold -/

/-- A slot holds the texts of a flow, which contain no NUL. -/
structure FlowHolds (f : Netscope.Flow) (slot : Flow) : Prop where
  inUse : slot.inUse = f.inUse
  protocol : slot.protocol = f.protocol
  addrA : Holds addrSize f.addrA slot.addrA
  addrB : Holds addrSize f.addrB slot.addrB
  wholeA : cString f.addrA = f.addrA
  wholeB : cString f.addrB = f.addrB
  portA : slot.portA = f.portA
  portB : slot.portB = f.portB
  packets : slot.packets = f.packets
  bytes : slot.bytes = f.bytes

structure EndpointsHold (e : Netscope.Endpoints) (out : Endpoints) : Prop where
  proto : out.proto = e.proto
  addrA : Holds addrSize e.addrA out.addrA
  portA : out.portA = e.portA
  addrB : Holds addrSize e.addrB out.addrB
  portB : out.portB = e.portB

/-- The counters agree and every slot of the table holds its flow. -/
structure StatsHold (stats : Netscope.Stats) (out : Stats) : Prop where
  counters : out.counters = { stats with flows := out.counters.flows }
  flows : List.Forall₂ FlowHolds stats.flows.toList out.flows

theorem forall₂_replicate {α β : Type} {R : α → β → Prop} {a : α} {b : β} (h : R a b) (n : ℕ) :
    List.Forall₂ R (List.replicate n a) (List.replicate n b) := by
  induction n with
  | zero => exact .nil
  | succ n ih => exact .cons h ih

theorem nsStatsInit_holds : StatsHold Netscope.nsStatsInit nsStatsInit where
  counters := rfl
  flows := by
    have hempty : Holds addrSize [] (zeroed addrSize) := zeroed_holds (by decide)
    have hzero : FlowHolds Flow.zero ⟨false,.unknown,zeroed addrSize,zeroed addrSize,0,0,0,0⟩ :=
      ⟨rfl,rfl,hempty,hempty,rfl,rfl,rfl,rfl,rfl,rfl⟩
    have hflows : Netscope.nsStatsInit.flows.toList = List.replicate maxFlows Flow.zero := Vector.toList_replicate
    rw [hflows, nsStatsInit]
    exact forall₂_replicate hzero maxFlows

/-! ## The flow table -/

/-- A cut C string contains no NUL either. -/
theorem cString_cut (s : Bytes) (n : ℕ) : cString (snprintf n (cString s)) = snprintf n (cString s) := by
  rw [cString_eq_self_iff]
  exact fun h => zero_notMem_cString s (List.mem_of_mem_take h)

section Table
variable {f : Netscope.Flow} {slot : Flow} {e : Netscope.Endpoints} {out : Endpoints}

theorem isFor_eq (hf : FlowHolds f slot) (he : EndpointsHold e out) : slot.isFor out = .ok (f.isFor e) := by
  unfold Flow.isFor Netscope.Flow.isFor
  rw [hf.inUse, hf.protocol, he.proto, strcmp_eq hf.addrA he.addrA, strcmp_eq hf.addrB he.addrB, hf.portA, hf.portB,
    he.portA, he.portB]
  by_cases huse : (f.inUse && f.protocol = e.proto) = true
  · rw [if_pos huse, ok_bind, huse, Bool.true_and]
    by_cases ha : Netscope.strcmp f.addrA e.addrA = 0
    · rw [if_pos ha, ok_bind, decide_eq_true ha, Bool.true_and]
      rfl
    · rw [if_neg ha, decide_eq_false ha]
      rfl
  · rw [if_neg huse, Bool.eq_false_iff.mpr huse]
    rfl

theorem hashFlow_eq (he : EndpointsHold e out) :
    hashFlow out = .ok (Netscope.hashFlow e.proto e.addrA e.portA e.addrB e.portB) := by
  unfold hashFlow Netscope.hashFlow
  rw [hashString_eq he.addrA, ok_bind, hashString_eq he.addrB, ok_bind, he.proto, he.portA, he.portB, List.foldl_append,
    List.foldl_append, List.foldl_append]
  rfl

theorem canonical_holds (he : EndpointsHold e out) :
    ∃ out', out.canonical = .ok out' ∧ EndpointsHold e.canonical out' := by
  unfold Endpoints.canonical Netscope.Endpoints.canonical
  have hreversed : e.isReversed = (decide (Netscope.strcmp e.addrA e.addrB > 0) ||
      (decide (Netscope.strcmp e.addrA e.addrB = 0) && decide (e.portA > e.portB))) := rfl
  rw [strcmp_eq he.addrA he.addrB, ok_bind, he.portA, he.portB, hreversed]
  split
  · exact ⟨_,rfl,he.proto,he.addrB,he.portB,he.addrA,he.portA⟩
  · exact ⟨_,rfl,he⟩

theorem start_holds (hf : FlowHolds f slot) (he : EndpointsHold e out) (bytes : UInt64) :
    ∃ slot', slot.start out bytes = .ok slot' ∧ FlowHolds (Netscope.Flow.start e bytes) slot' := by
  obtain ⟨addrA,hprintA,hA⟩ := printInto_holds (by decide) hf.addrA.1 (cString e.addrA)
  obtain ⟨addrB,hprintB,hB⟩ := printInto_holds (by decide) hf.addrB.1 (cString e.addrB)
  refine ⟨{ inUse := true, protocol := out.proto, addrA := addrA, addrB := addrB, portA := out.portA,
            portB := out.portB, packets := 1, bytes := bytes },?_,?_⟩
  · simp only [Flow.start, loadString_holds he.addrA, loadString_holds he.addrB, ok_bind, hprintA, hprintB]
    rfl
  · exact ⟨rfl,he.proto,hA,hB,cString_cut _ _,cString_cut _ _,he.portA,he.portB,rfl,rfl⟩

theorem FlowHolds.addPacket (hf : FlowHolds f slot) (bytes : UInt64) :
    FlowHolds (Netscope.Flow.addPacket f bytes) (slot.addPacket bytes) where
  inUse := hf.inUse
  protocol := hf.protocol
  addrA := hf.addrA
  addrB := hf.addrB
  wholeA := hf.wholeA
  wholeB := hf.wholeB
  portA := hf.portA
  portB := hf.portB
  packets := congrArg (· + 1) hf.packets
  bytes := congrArg (· + bytes) hf.bytes

/-- The tables hold the same after an assignment to one slot. -/
theorem StatsHold.flows_set {s : Netscope.Stats} {so : Stats} (hs : StatsHold s so) {i : Fin maxFlows}
    (hf : FlowHolds f slot) : List.Forall₂ FlowHolds (s.flows.set i f i.isLt).toList (so.flows.set i slot) := by
  obtain ⟨hlen,hget⟩ := List.forall₂_iff_get.mp hs.flows
  rw [Vector.toList_set]
  refine List.forall₂_iff_get.mpr ⟨by rw [List.length_set, List.length_set, hlen],?_⟩
  intro j h₁ h₂
  rw [List.get_eq_getElem, List.get_eq_getElem, List.getElem_set, List.getElem_set]
  by_cases hij : i.val = j
  · rw [if_pos hij, if_pos hij]
    exact hf
  · rw [if_neg hij, if_neg hij]
    rw [List.length_set] at h₁ h₂
    exact hget j h₁ h₂

/-- The probe loop over a table whose slots hold their flows. -/
theorem recordFlowLoop_holds {s : Netscope.Stats} {so : Stats} (hs : StatsHold s so) (hcount : s.flowCount ≤ maxFlows)
    (he : EndpointsHold e out) (bytes : UInt64) (start remaining i : ℕ) :
    ∃ so', recordFlowLoop so out bytes start remaining i = .ok so' ∧
      StatsHold (Netscope.recordFlowLoop s e bytes start remaining i) so' := by
  induction remaining generalizing i with
  | zero => exact ⟨so,rfl,hs⟩
  | succ remaining ih =>
    obtain ⟨hlen,hget⟩ := List.forall₂_iff_get.mp hs.flows
    have hsize : so.flows.length = maxFlows := by rw [← hlen, Vector.length_toList]
    have hmod : (start + i) % maxFlows < maxFlows := Nat.mod_lt _ (by decide)
    have hidx : (start + i) % maxFlows < so.flows.length := by rwa [hsize]
    have hslot : FlowHolds (s.flows.get (Fin.ofNat maxFlows (start + i))) so.flows[(start + i) % maxFlows] := by
      have h := hget ((start + i) % maxFlows) (by rwa [Vector.length_toList]) hidx
      rwa [List.get_eq_getElem, List.get_eq_getElem, Vector.getElem_toList] at h
    have hflows : so.counters.flowCount = s.flowCount := by rw [hs.counters]
    have hroom : s.flowCount + 1 < 2 ^ 64 := Nat.lt_of_le_of_lt (Nat.succ_le_succ hcount) (by norm_num)
    unfold recordFlowLoop Netscope.recordFlowLoop
    simp only [element_ok hidx, ok_bind, isFor_eq hslot he]
    cases hfor : (s.flows.get (Fin.ofNat maxFlows (start + i))).isFor e with
    | true =>
      have hadd := hslot.addPacket bytes
      simp only [↓reduceIte, setElement_ok hidx, ok_bind]
      exact ⟨_,rfl,hs.counters,hs.flows_set hadd⟩
    | false =>
      rw [hslot.inUse]
      cases huse : (s.flows.get (Fin.ofNat maxFlows (start + i))).inUse with
      | true =>
        simp only [Bool.not_true, Bool.false_eq_true, ↓reduceIte]
        exact ih (i + 1)
      | false =>
        obtain ⟨slot',hstart,hnew⟩ := start_holds hslot he bytes
        simp only [Bool.not_false, Bool.false_eq_true, ↓reduceIte, hstart, ok_bind, setElement_ok hidx, hflows,
          sizeAdd_ok hroom]
        refine ⟨_,rfl,?_,?_⟩
        · rw [hs.counters]
        · exact hs.flows_set hnew

theorem recordFlow_holds {s : Netscope.Stats} {so : Stats} (hs : StatsHold s so) (hcount : s.flowCount ≤ maxFlows)
    (he : EndpointsHold e out) (bytes : UInt64) :
    ∃ so', recordFlow so out bytes = .ok so' ∧ StatsHold (Netscope.recordFlow s e bytes) so' := by
  obtain ⟨out',hcanonical,hordered⟩ := canonical_holds he
  rw [recordFlow, hcanonical, ok_bind, hashFlow_eq hordered, ok_bind]
  exact recordFlowLoop_holds hs hcount hordered bytes _ _ _

end Table

/-! ## Updates -/

/-- Two arrays hold two address texts. -/
def TextsHold (texts : Bytes × Bytes) (bufs : Cells × Cells) : Prop :=
  Holds addrSize texts.1 bufs.1 ∧ Holds addrSize texts.2 bufs.2

theorem textsHold {a b : Bytes} {bufA bufB : Cells} (hA : Holds addrSize a bufA) (hB : Holds addrSize b bufB) :
    TextsHold (a,b) (bufA,bufB) := ⟨hA,hB⟩

section Updates
variable {pkt : Netscope.Packet} {out : Packet} (hrep : Represents pkt out) (htags : MembersTagged pkt)
include hrep htags

theorem networkAddresses_holds :
    ∃ r, networkAddresses out = .ok r ∧ Option.Rel TextsHold (Netscope.networkAddresses pkt) r := by
  unfold networkAddresses Netscope.networkAddresses
  rw [hrep.networkProto]
  cases hp : pkt.networkProto with
  | ipv4 =>
    obtain ⟨addrA,h₁,hA⟩ := nsFormatIpv4_holds (by decide) (fresh_length addrSize) pkt.net.getIpv4.source
    obtain ⟨addrB,h₂,hB⟩ := nsFormatIpv4_holds (by decide) (fresh_length addrSize) pkt.net.getIpv4.destination
    simp only [netMember_eq hrep htags hp (by decide), ok_bind, h₁, h₂]
    exact ⟨some (addrA,addrB),rfl,.some (textsHold hA hB)⟩
  | ipv6 =>
    obtain ⟨addrA,h₁,hA⟩ := nsFormatIpv6_holds (by decide) (fresh_length addrSize) pkt.net.getIpv6.source
    obtain ⟨addrB,h₂,hB⟩ := nsFormatIpv6_holds (by decide) (fresh_length addrSize) pkt.net.getIpv6.destination
    simp only [netMember_eq hrep htags hp (by decide), ok_bind, h₁, h₂]
    exact ⟨some (addrA,addrB),rfl,.some (textsHold hA hB)⟩
  | _ => exact ⟨none,rfl,.none⟩

theorem transportPorts_eq : transportPorts out = .ok (Netscope.transportPorts pkt) := by
  unfold transportPorts Netscope.transportPorts
  rw [hrep.transportProto]
  cases hp : pkt.transportProto with
  | tcp | udp =>
    rw [transportMember_eq hrep htags hp (by decide)]
    rfl
  | _ => rfl

theorem extractEndpoints_holds :
    ∃ r, extractEndpoints out = .ok r ∧ Option.Rel EndpointsHold (Netscope.extractEndpoints pkt) r := by
  unfold extractEndpoints Netscope.extractEndpoints
  rw [hrep.networkProto]
  by_cases harp : pkt.networkProto = .arp
  · obtain ⟨addrA,h₁,hA⟩ := nsFormatIpv4_holds (by decide) (fresh_length addrSize) pkt.net.getArp.senderIp
    obtain ⟨addrB,h₂,hB⟩ := nsFormatIpv4_holds (by decide) (fresh_length addrSize) pkt.net.getArp.targetIp
    rw [if_pos harp, if_pos harp, extractArp, netMember_eq hrep htags harp (by decide)]
    simp only [ok_bind, h₁, h₂]
    exact ⟨_,rfl,.some ⟨rfl,hA,rfl,hB,rfl⟩⟩
  · obtain ⟨r,haddrs,hrel⟩ := networkAddresses_holds hrep htags
    rw [if_neg harp, if_neg harp, haddrs, ok_bind, transportPorts_eq hrep htags]
    generalize Netscope.networkAddresses pkt = addrs at hrel ⊢
    cases hrel with
    | none => exact ⟨none,rfl,.none⟩
    | @some texts bufs hbufs =>
      cases Netscope.transportPorts pkt with
      | none => exact ⟨none,rfl,.none⟩
      | some ports => exact ⟨_,rfl,.some ⟨rfl,hbufs.1,rfl,hbufs.2,rfl⟩⟩

omit htags in
theorem countPacket_layers (counters : Netscope.Stats) : countPacket counters out.layers = countPacket counters pkt := by
  rw [Accounting.countPacket_eq, Accounting.countPacket_eq, hrep.out_eq]
  rfl

omit htags in
theorem countPacket_holds {s : Netscope.Stats} {so : Stats} (hs : StatsHold s so) :
    StatsHold (countPacket s pkt) { so with counters := countPacket so.counters out.layers } where
  counters := by
    dsimp only
    rw [countPacket_layers hrep, hs.counters, Accounting.countPacket_eq, Accounting.countPacket_eq]
    rfl
  flows := by
    rw [(FlowTable.countPacket_flows s pkt).1]
    exact hs.flows

/-- A packet is counted without a fault as long as the counter of flows stays small. -/
theorem nsStatsUpdate_holds {s : Netscope.Stats} {so : Stats} (hs : StatsHold s so) (hcount : s.flowCount ≤ maxFlows) :
    ∃ so', nsStatsUpdate so out = .ok so' ∧ StatsHold (Netscope.nsStatsUpdate s pkt) so' := by
  have hcounted := countPacket_holds hrep hs
  obtain ⟨r,hextract,hrel⟩ := extractEndpoints_holds hrep htags
  have hlen : out.layers.capturedLength = pkt.capturedLength := by rw [hrep.out_eq]
  unfold nsStatsUpdate Netscope.nsStatsUpdate
  rw [hextract, ok_bind, hlen]
  generalize Netscope.extractEndpoints pkt = e at hrel ⊢
  cases hrel with
  | none => exact ⟨_,rfl,hcounted⟩
  | some he =>
    rw [← (FlowTable.countPacket_flows s pkt).2] at hcount
    dsimp only
    exact recordFlow_holds hcounted hcount he (UInt64.ofNat pkt.capturedLength)

end Updates

end Netscope.Checked
