import Netscope.Dns.Transports
import Netscope.Layers.LayerTags
import Netscope.Library.Tallies
import Netscope.Model.StatsPrint
import Netscope.Stats.FlowTable

/-! # The books of the statistics

Every counter of `ns_stats_t` tallies a weight of the packets of the run. What the
printed totals rest on are inequalities between the weights of a single packet, and
these hold because the tags of parsed packets are consistent.
-/
namespace Netscope.Accounting
open Tallies FlowKey FlowTable LayerTags Layers

/-! ## Weights -/

def hasNetwork (proto : Proto) (pkt : Packet) : ℕ := if pkt.networkProto = proto then 1 else 0

def hasTransport (proto : Proto) (pkt : Packet) : ℕ := if pkt.transportProto = proto then 1 else 0

def carriesDns (pkt : Packet) : ℕ := if pkt.hasDns then 1 else 0

def isMalformed (pkt : Packet) : ℕ := if pkt.malformed then 1 else 0

/-- An Ethernet packet in order whose network protocol is not decoded. -/
def isUnsupported (pkt : Packet) : ℕ :=
  if pkt.networkProto ∉ [.ipv4,.ipv6,.arp] ∧ pkt.hasEth ∧ ¬pkt.malformed then 1 else 0

/-- A malformed packet whose network protocol is not known. -/
def isBroken (pkt : Packet) : ℕ := if pkt.malformed ∧ pkt.networkProto = .unknown then 1 else 0

/-- The decoded transport headers of a packet. -/
def transports (pkt : Packet) : ℕ :=
  hasTransport .tcp pkt + hasTransport .udp pkt + hasTransport .icmp pkt + hasTransport .icmpv6 pkt

/-! ## Counters -/

/-- The counters after one packet, each advanced by a weight. -/
def addWeights (stats : Stats) (pkt : Packet) : Stats :=
  { stats with
    totalPackets := stats.totalPackets + UInt64.ofNat 1
    totalCapturedBytes := stats.totalCapturedBytes + UInt64.ofNat pkt.capturedLength
    totalWireBytes := stats.totalWireBytes + UInt64.ofNat pkt.originalLength
    ipv4Packets := stats.ipv4Packets + UInt64.ofNat (hasNetwork .ipv4 pkt)
    ipv6Packets := stats.ipv6Packets + UInt64.ofNat (hasNetwork .ipv6 pkt)
    arpPackets := stats.arpPackets + UInt64.ofNat (hasNetwork .arp pkt)
    tcpPackets := stats.tcpPackets + UInt64.ofNat (hasTransport .tcp pkt)
    udpPackets := stats.udpPackets + UInt64.ofNat (hasTransport .udp pkt)
    icmpPackets := stats.icmpPackets + UInt64.ofNat (hasTransport .icmp pkt)
    icmpv6Packets := stats.icmpv6Packets + UInt64.ofNat (hasTransport .icmpv6 pkt)
    dnsPackets := stats.dnsPackets + UInt64.ofNat (carriesDns pkt)
    malformedPackets := stats.malformedPackets + UInt64.ofNat (isMalformed pkt)
    unsupportedPackets := stats.unsupportedPackets + UInt64.ofNat (isUnsupported pkt) }

theorem countTotals_eq (stats : Stats) (pkt : Packet) :
    countTotals stats pkt = { stats with
      totalPackets := stats.totalPackets + UInt64.ofNat 1
      totalCapturedBytes := stats.totalCapturedBytes + UInt64.ofNat pkt.capturedLength
      totalWireBytes := stats.totalWireBytes + UInt64.ofNat pkt.originalLength
      malformedPackets := stats.malformedPackets + UInt64.ofNat (isMalformed pkt) } := by
  unfold countTotals isMalformed
  cases pkt.malformed <;> simp

theorem countNetwork_eq (stats : Stats) (pkt : Packet) :
    countNetwork stats pkt = { stats with
      ipv4Packets := stats.ipv4Packets + UInt64.ofNat (hasNetwork .ipv4 pkt)
      ipv6Packets := stats.ipv6Packets + UInt64.ofNat (hasNetwork .ipv6 pkt)
      arpPackets := stats.arpPackets + UInt64.ofNat (hasNetwork .arp pkt)
      unsupportedPackets := stats.unsupportedPackets + UInt64.ofNat (isUnsupported pkt) } := by
  unfold countNetwork hasNetwork isUnsupported
  cases pkt.networkProto with
  | ipv4 | ipv6 | arp => simp
  | unknown | tcp | udp | icmp | icmpv6 | dns =>
    by_cases h : pkt.hasEth = true ∧ pkt.malformed = false
    · simp [h]
    · by_cases heth : pkt.hasEth = true
      · simp_all
      · simp_all

theorem countTransport_eq (stats : Stats) (pkt : Packet) :
    countTransport stats pkt = { stats with
      tcpPackets := stats.tcpPackets + UInt64.ofNat (hasTransport .tcp pkt)
      udpPackets := stats.udpPackets + UInt64.ofNat (hasTransport .udp pkt)
      icmpPackets := stats.icmpPackets + UInt64.ofNat (hasTransport .icmp pkt)
      icmpv6Packets := stats.icmpv6Packets + UInt64.ofNat (hasTransport .icmpv6 pkt) } := by
  unfold countTransport hasTransport
  cases pkt.transportProto <;> simp

theorem countDns_eq (stats : Stats) (pkt : Packet) :
    countDns stats pkt = { stats with dnsPackets := stats.dnsPackets + UInt64.ofNat (carriesDns pkt) } := by
  unfold countDns carriesDns
  cases pkt.hasDns <;> simp

theorem countPacket_eq (stats : Stats) (pkt : Packet) : countPacket stats pkt = addWeights stats pkt := by
  rw [countPacket, countDns_eq, countTransport_eq, countNetwork_eq, countTotals_eq, addWeights]

/-- Recording a flow touches the table alone. -/
theorem recordFlowLoop_counters (stats : Stats) (e : Endpoints) (bytes : UInt64) (start remaining i : ℕ) :
    ∃ flows flowCount, recordFlowLoop stats e bytes start remaining i =
      { stats with flows := flows, flowCount := flowCount } := by
  induction remaining generalizing i with
  | zero => exact ⟨stats.flows,stats.flowCount,rfl⟩
  | succ remaining ih =>
    unfold recordFlowLoop
    dsimp only
    split
    · exact ⟨_,_,rfl⟩
    · split
      · exact ⟨_,_,rfl⟩
      · exact ih (i + 1)

theorem nsStatsUpdate_counters (stats : Stats) (pkt : Packet) :
    ∃ flows flowCount, nsStatsUpdate stats pkt = { addWeights stats pkt with flows := flows, flowCount := flowCount } := by
  unfold nsStatsUpdate
  rw [countPacket_eq]
  cases extractEndpoints pkt with
  | none => exact ⟨_,_,rfl⟩
  | some e => exact recordFlowLoop_counters _ _ _ _ _ _

abbrev StatsCounter := Counter nsStatsInit nsStatsUpdate

/-- A field outside the table that is advanced by a weight is a counter. -/
def counterOf (read : Stats → UInt64) (weight : Packet → ℕ) (starts : read nsStatsInit = 0)
    (adds : ∀ stats pkt flows flowCount, read { addWeights stats pkt with flows := flows, flowCount := flowCount } =
      read stats + UInt64.ofNat (weight pkt)) : StatsCounter where
  read := read
  weight := weight
  starts := starts
  advances stats pkt := by
    obtain ⟨flows,flowCount,h⟩ := nsStatsUpdate_counters stats pkt
    rw [h, adds]

/-- A counter of packets is exact in every run of fewer than `2 ^ 64` packets. -/
theorem toNat_packetCounter (c : StatsCounter) {pkts : List Packet} (hweight : ∀ pkt, c.weight pkt ≤ 1)
    (h : pkts.length < 2 ^ 64) : (c.read (runStats pkts)).toNat = tally c.weight pkts := by
  apply c.toNat_run
  apply lt_of_le_of_lt _ h
  rw [← tally_one]
  exact tally_le (fun pkt _ => hweight pkt)

theorem hasNetwork_le (proto : Proto) (pkt : Packet) : hasNetwork proto pkt ≤ 1 := by
  unfold hasNetwork
  split <;> omega

theorem hasTransport_le (proto : Proto) (pkt : Packet) : hasTransport proto pkt ≤ 1 := by
  unfold hasTransport
  split <;> omega

/-- The counters of a run are the tallies of its packets. -/
structure Exact (stats : Stats) (pkts : List Packet) : Prop where
  total : stats.totalPackets.toNat = tally (fun _ => 1) pkts
  ipv4 : stats.ipv4Packets.toNat = tally (hasNetwork .ipv4) pkts
  ipv6 : stats.ipv6Packets.toNat = tally (hasNetwork .ipv6) pkts
  arp : stats.arpPackets.toNat = tally (hasNetwork .arp) pkts
  tcp : stats.tcpPackets.toNat = tally (hasTransport .tcp) pkts
  udp : stats.udpPackets.toNat = tally (hasTransport .udp) pkts
  icmp : stats.icmpPackets.toNat = tally (hasTransport .icmp) pkts
  icmpv6 : stats.icmpv6Packets.toNat = tally (hasTransport .icmpv6) pkts
  dns : stats.dnsPackets.toNat = tally carriesDns pkts
  unsupported : stats.unsupportedPackets.toNat = tally isUnsupported pkts

theorem runStats_exact {pkts : List Packet} (h : pkts.length < 2 ^ 64) : Exact (runStats pkts) pkts where
  total := toNat_packetCounter (counterOf Stats.totalPackets (fun _ => 1) rfl (fun _ _ _ _ => rfl)) (fun _ => le_rfl) h
  ipv4 := toNat_packetCounter (counterOf Stats.ipv4Packets (hasNetwork .ipv4) rfl (fun _ _ _ _ => rfl)) (hasNetwork_le _) h
  ipv6 := toNat_packetCounter (counterOf Stats.ipv6Packets (hasNetwork .ipv6) rfl (fun _ _ _ _ => rfl)) (hasNetwork_le _) h
  arp := toNat_packetCounter (counterOf Stats.arpPackets (hasNetwork .arp) rfl (fun _ _ _ _ => rfl)) (hasNetwork_le _) h
  tcp := toNat_packetCounter (counterOf Stats.tcpPackets (hasTransport .tcp) rfl (fun _ _ _ _ => rfl)) (hasTransport_le _) h
  udp := toNat_packetCounter (counterOf Stats.udpPackets (hasTransport .udp) rfl (fun _ _ _ _ => rfl)) (hasTransport_le _) h
  icmp := toNat_packetCounter (counterOf Stats.icmpPackets (hasTransport .icmp) rfl (fun _ _ _ _ => rfl)) (hasTransport_le _) h
  icmpv6 :=
    toNat_packetCounter (counterOf Stats.icmpv6Packets (hasTransport .icmpv6) rfl (fun _ _ _ _ => rfl)) (hasTransport_le _) h
  dns := by
    apply toNat_packetCounter (counterOf Stats.dnsPackets carriesDns rfl (fun _ _ _ _ => rfl)) _ h
    intro pkt
    change carriesDns pkt ≤ 1
    unfold carriesDns
    split <;> omega
  unsupported := by
    apply toNat_packetCounter (counterOf Stats.unsupportedPackets isUnsupported rfl (fun _ _ _ _ => rfl)) _ h
    intro pkt
    change isUnsupported pkt ≤ 1
    unfold isUnsupported
    split <;> omega

theorem runStats_captured {pkts : List Packet} (h : tally Packet.capturedLength pkts < 2 ^ 64) :
    (runStats pkts).totalCapturedBytes.toNat = tally Packet.capturedLength pkts :=
  (counterOf Stats.totalCapturedBytes Packet.capturedLength rfl (fun _ _ _ _ => rfl)).toNat_run h

/-! ## One packet -/

theorem transportPorts_isSome (pkt : Packet) : (if (transportPorts pkt).isSome then 1 else 0) = transports pkt := by
  unfold transportPorts transports hasTransport
  cases ht : pkt.transportProto <;> simp

section Packets
variable {pkt : Packet} (h : TagsConsistent pkt)
include h

/-- A packet has at most one transport header, and only on top of IP. -/
theorem transports_le : transports pkt ≤ hasNetwork .ipv4 pkt + hasNetwork .ipv6 pkt := by
  by_cases hu : pkt.transportProto = .unknown
  · simp [transports, hasTransport, hu]
  · have hone : transports pkt ≤ 1 := by
      unfold transports hasTransport
      cases pkt.transportProto <;> simp
    rcases h.transport hu with hn | hn
    · simpa [hasNetwork, hn] using hone
    · simpa [hasNetwork, hn] using hone

theorem transports_arp_le : transports pkt + hasNetwork .arp pkt ≤ 1 := by
  have hle := transports_le h
  unfold hasNetwork at hle ⊢
  cases hn : pkt.networkProto <;> simp_all

theorem carriesDns_le : carriesDns pkt ≤ hasTransport .tcp pkt + hasTransport .udp pkt := by
  unfold carriesDns
  split
  · rename_i hd
    rcases (h.dns hd).1 with ⟨ht,-⟩ | ⟨ht,-⟩
    · simp [hasTransport, ht]
    · simp [hasTransport, ht]
  · exact Nat.zero_le _

/-- The packets with a flow are those with a transport header and the ARP packets. -/
theorem hasKey_eq : (if (packetKey pkt).isSome then 1 else 0) = transports pkt + hasNetwork .arp pkt := by
  have hle := transports_le h
  unfold packetKey packetEndpoints
  cases hn : pkt.networkProto with
  | arp =>
    have hzero : transports pkt = 0 := by simpa [hasNetwork, hn] using hle
    simp [hasNetwork, hn, hzero]
  | ipv4 | ipv6 => simp only [hasNetwork, hn, reduceCtorEq, ↓reduceIte, Option.isSome_map, transportPorts_isSome, Nat.add_zero]
  | unknown | tcp | udp | icmp | icmpv6 | dns =>
    have hzero : transports pkt = 0 := by simpa [hasNetwork, hn] using hle
    simp [hasNetwork, hn, hzero]

end Packets

theorem hasEth_of_parsed {c : Capture} {eth : EthInfo} {offset : ℕ} (hl : c.linkType = .ethernet)
    (hm : nsParseEthernet c.data = .ok (eth,offset)) : c.packet.hasEth = true := by
  have hlink := (linkPacket_pending c eth offset).hasEth
  rw [packet_of_ethernet hl hm, nsPacketParseNetwork]
  split
  · rw [(nsPacketParseIpv4_sameLink _ _ _).1]
    exact hlink
  · split
    · rw [(nsPacketParseIpv6_sameLink _ _ _).1]
      exact hlink
    · split
      · rw [(nsPacketParseArp_sameLink _ _ _).1]
        exact hlink
      · exact hlink

theorem malformed_of_not_hasEth {c : Capture} (hl : c.linkType = .ethernet) (h : c.packet.hasEth = false) :
    c.packet.malformed = true := by
  cases hm : nsParseEthernet c.data with
  | error e =>
    rw [packet_of_error hl hm]
    rfl
  | ok m =>
    rw [hasEth_of_parsed hl hm] at h
    cases h

/-- An Ethernet packet has a network protocol, or it is unsupported or malformed. -/
theorem ethernet_accounted {c : Capture} (hl : c.linkType = .ethernet) :
    hasNetwork .ipv4 c.packet + hasNetwork .ipv6 c.packet + hasNetwork .arp c.packet + isUnsupported c.packet +
      isBroken c.packet = 1 := by
  have htags := (walkRule_tagsConsistent c).packet.networkProto
  have heth := @malformed_of_not_hasEth c hl
  unfold hasNetwork isUnsupported isBroken
  cases hn : c.packet.networkProto with
  | ipv4 | ipv6 | arp => simp
  | unknown =>
    cases hm : c.packet.malformed with
    | true => simp
    | false =>
      have htrue : c.packet.hasEth = true := by
        by_contra hfalse
        rw [heth (Bool.eq_false_iff.mpr hfalse)] at hm
        cases hm
      simp [htrue]
  | tcp | udp | icmp | icmpv6 | dns => simp [hn] at htags

/-! ## The flow table -/

section Flows
variable {pkts : List Packet}

/-- A sum over the slots in use is a sum over the keys that found room. -/
theorem sum_slots (volume : Flow → ℕ) (weight : Key → ℕ)
    (h : ∀ i k, (slots (runStats pkts) i).inUse = true → layout.key (slots (runStats pkts) i) = storedTexts k →
      volume (slots (runStats pkts) i) = weight k) :
    ∑ i with (slots (runStats pkts) i).inUse = true, volume (slots (runStats pkts) i) =
      ∑ k ∈ (firstKeys pkts).toFinset, weight k := by
  -- The texts of a key carry its weight, so both sums run over the stored texts.
  have hweight : ∀ k, Function.extend storedTexts weight 0 (storedTexts k) = weight k :=
    fun k => storedTexts_injective.extend_apply weight 0 k
  have himage : (Finset.univ.filter fun i => (slots (runStats pkts) i).inUse = true).image
      (fun i => layout.key (slots (runStats pkts) i)) = (firstKeys pkts).toFinset.image storedTexts := by
    ext e
    simp only [Finset.mem_image, Finset.mem_filter, Finset.mem_univ, true_and, List.mem_toFinset]
    constructor
    · rintro ⟨i,hi,rfl⟩
      obtain ⟨k,hk,he⟩ := slot_stored hi
      exact ⟨k,hk,he.symm⟩
    · rintro ⟨k,hk,rfl⟩
      exact exists_slot hk
  have hslots : ∀ i ∈ Finset.univ.filter (fun i => (slots (runStats pkts) i).inUse = true),
      volume (slots (runStats pkts) i) = Function.extend storedTexts weight 0 (layout.key (slots (runStats pkts) i)) := by
    intro i hi
    have huse := (Finset.mem_filter.mp hi).2
    obtain ⟨k,-,he⟩ := slot_stored huse
    rw [h i k huse he, he, hweight]
  have hinj : Set.InjOn (fun i => layout.key (slots (runStats pkts) i))
      (Finset.univ.filter fun i => (slots (runStats pkts) i).inUse = true : Finset (Fin maxFlows)) := by
    intro i hi j hj hij
    have hi := (Finset.mem_filter.mp (Finset.mem_coe.mp hi)).2
    have hj := (Finset.mem_filter.mp (Finset.mem_coe.mp hj)).2
    exact (runStats_holds pkts).wellProbed.distinct i j hi hj hij
  rw [Finset.sum_congr rfl hslots, ← Finset.sum_image hinj, himage,
    Finset.sum_image (fun a _ b _ hab => storedTexts_injective hab)]
  exact Finset.sum_congr rfl (fun k _ => hweight k)

/-- The weight of a packet whose key found room. -/
def admitted (pkts : List Packet) (weight : Packet → ℕ) (pkt : Packet) : ℕ :=
  if ∃ k ∈ (firstKeys pkts).toFinset, packetKey pkt = some k then weight pkt else 0

theorem tally_filter_le (weight : Packet → ℕ) (p : Packet → Bool) : tally weight (pkts.filter p) ≤ tally weight pkts :=
  List.Sublist.sum_le_sum (List.filter_sublist.map weight) (fun _ _ => Nat.zero_le _)

theorem sum_packets (h : pkts.length < 2 ^ 64) :
    ∑ i with (slots (runStats pkts) i).inUse = true, (slots (runStats pkts) i).packets.toNat =
      tally (admitted pkts fun _ => 1) pkts := by
  rw [sum_slots (fun slot => slot.packets.toNat)
    (fun k => tally (fun _ => 1) (pkts.filter fun pkt => packetKey pkt = some k)) ?_]
  · exact sum_tally_filter _ _ _ _
  · intro i k hi he
    rw [(slot_volume hi he).1, tally_one, UInt64.toNat_ofNat_of_lt']
    exact lt_of_le_of_lt (List.length_filter_le _ _) h

theorem sum_bytes (h : tally Packet.capturedLength pkts < 2 ^ 64) :
    ∑ i with (slots (runStats pkts) i).inUse = true, (slots (runStats pkts) i).bytes.toNat =
      tally (admitted pkts Packet.capturedLength) pkts := by
  rw [sum_slots (fun slot => slot.bytes.toNat)
    (fun k => tally Packet.capturedLength (pkts.filter fun pkt => packetKey pkt = some k)) ?_]
  · exact sum_tally_filter _ _ _ _
  · intro i k hi he
    rw [(slot_volume hi he).2]
    exact UInt64.toNat_ofNat_of_lt' (lt_of_le_of_lt (tally_filter_le _ _) h)

theorem admitted_le (weight : Packet → ℕ) (pkt : Packet) :
    admitted pkts weight pkt ≤ if (packetKey pkt).isSome then weight pkt else 0 := by
  unfold admitted
  split
  · rename_i hk
    obtain ⟨k,-,hk⟩ := hk
    simp [hk]
  · exact Nat.zero_le _

/-- When all keys find room, every packet with a key is admitted. -/
theorem admitted_eq (weight : Packet → ℕ) (hroom : (pkts.filterMap packetKey).eraseDups.length ≤ maxFlows) {pkt : Packet}
    (hmem : pkt ∈ pkts) : admitted pkts weight pkt = if (packetKey pkt).isSome then weight pkt else 0 := by
  unfold admitted
  cases hk : packetKey pkt with
  | none => simp
  | some k =>
    have hfirst : k ∈ (firstKeys pkts).toFinset := by
      rw [List.mem_toFinset, firstKeys, List.take_of_length_le hroom, List.mem_eraseDups, List.mem_filterMap]
      exact ⟨pkt,hmem,hk⟩
    rw [if_pos ⟨k,hfirst,rfl⟩]
    rfl

end Flows

/-! ## Whole runs -/

/-- The books of a run: what the printed totals rely on. -/
structure Accounted (captures : List Capture) (stats : Stats) : Prop where
  protocols : stats.tcpPackets.toNat + stats.udpPackets.toNat + stats.icmpPackets.toNat + stats.icmpv6Packets.toNat +
    stats.arpPackets.toNat ≤ stats.totalPackets.toNat
  other : (otherPackets stats).toNat + (stats.tcpPackets.toNat + stats.udpPackets.toNat + stats.icmpPackets.toNat +
    stats.icmpv6Packets.toNat + stats.arpPackets.toNat) = stats.totalPackets.toNat
  transports : stats.tcpPackets.toNat + stats.udpPackets.toNat + stats.icmpPackets.toNat + stats.icmpv6Packets.toNat ≤
    stats.ipv4Packets.toNat + stats.ipv6Packets.toNat
  dns : stats.dnsPackets.toNat ≤ stats.tcpPackets.toNat + stats.udpPackets.toNat
  ethernet : (∀ c ∈ captures, c.linkType = .ethernet) →
    stats.totalPackets.toNat = stats.ipv4Packets.toNat + stats.ipv6Packets.toNat + stats.arpPackets.toNat +
      stats.unsupportedPackets.toNat +
      (captures.filter fun c => c.packet.malformed ∧ c.packet.networkProto = .unknown).length
  flowPackets : ∑ i with (slots stats i).inUse = true, (slots stats i).packets.toNat ≤
    stats.tcpPackets.toNat + stats.udpPackets.toNat + stats.icmpPackets.toNat + stats.icmpv6Packets.toNat +
      stats.arpPackets.toNat
  allFlowPackets : ((captures.map Capture.packet).filterMap packetKey).eraseDups.length ≤ maxFlows →
    ∑ i with (slots stats i).inUse = true, (slots stats i).packets.toNat =
      stats.tcpPackets.toNat + stats.udpPackets.toNat + stats.icmpPackets.toNat + stats.icmpv6Packets.toNat +
        stats.arpPackets.toNat
  flowBytes : ∑ i with (slots stats i).inUse = true, (slots stats i).bytes.toNat ≤ stats.totalCapturedBytes.toNat

section Run
variable {captures : List Capture}

/-- An inequality between the weights of parsed packets is one between their tallies. -/
theorem tally_packets_le {f g : Packet → ℕ} (h : ∀ pkt, TagsConsistent pkt → f pkt ≤ g pkt) :
    tally f (captures.map Capture.packet) ≤ tally g (captures.map Capture.packet) := by
  apply tally_le
  intro pkt hmem
  obtain ⟨c,-,rfl⟩ := List.mem_map.mp hmem
  exact h _ (walkRule_tagsConsistent c).packet

theorem tally_transports (pkts : List Packet) :
    tally transports pkts = tally (hasTransport .tcp) pkts + tally (hasTransport .udp) pkts +
      tally (hasTransport .icmp) pkts + tally (hasTransport .icmpv6) pkts := by
  unfold transports
  rw [tally_add, tally_add, tally_add]

/-- The subtraction of the printer does not wrap. -/
theorem otherPackets_toNat {stats : Stats} (h : stats.tcpPackets.toNat + stats.udpPackets.toNat +
      stats.icmpPackets.toNat + stats.icmpv6Packets.toNat + stats.arpPackets.toNat ≤ stats.totalPackets.toNat) :
    (otherPackets stats).toNat + (stats.tcpPackets.toNat + stats.udpPackets.toNat + stats.icmpPackets.toNat +
      stats.icmpv6Packets.toNat + stats.arpPackets.toNat) = stats.totalPackets.toNat := by
  have hsub : ∀ {a b : UInt64}, b.toNat ≤ a.toNat → (a - b).toNat = a.toNat - b.toNat :=
    fun hle => UInt64.toNat_sub_of_le _ _ (UInt64.le_iff_toNat_le.mpr hle)
  have h1 := @hsub stats.totalPackets stats.tcpPackets (by omega)
  have h2 := @hsub (stats.totalPackets - stats.tcpPackets) stats.udpPackets (by omega)
  have h3 := @hsub (stats.totalPackets - stats.tcpPackets - stats.udpPackets) stats.icmpPackets (by omega)
  have h4 := @hsub (stats.totalPackets - stats.tcpPackets - stats.udpPackets - stats.icmpPackets) stats.icmpv6Packets
    (by omega)
  have h5 := @hsub (stats.totalPackets - stats.tcpPackets - stats.udpPackets - stats.icmpPackets - stats.icmpv6Packets)
    stats.arpPackets (by omega)
  rw [otherPackets]
  omega

theorem tally_flows (pkts : List Packet) :
    tally (fun pkt => transports pkt + hasNetwork .arp pkt) pkts = tally (hasTransport .tcp) pkts +
      tally (hasTransport .udp) pkts + tally (hasTransport .icmp) pkts + tally (hasTransport .icmpv6) pkts +
      tally (hasNetwork .arp) pkts := by
  rw [tally_add, tally_transports]

theorem tally_ethernet (h : ∀ c ∈ captures, c.linkType = .ethernet) :
    tally (fun _ => 1) (captures.map Capture.packet) =
      tally (hasNetwork .ipv4) (captures.map Capture.packet) + tally (hasNetwork .ipv6) (captures.map Capture.packet) +
      tally (hasNetwork .arp) (captures.map Capture.packet) + tally isUnsupported (captures.map Capture.packet) +
      (captures.filter fun c => c.packet.malformed ∧ c.packet.networkProto = .unknown).length := by
  have hbroken : (captures.filter fun c => c.packet.malformed ∧ c.packet.networkProto = .unknown).length =
      tally isBroken (captures.map Capture.packet) := by
    rw [tally_map, ← List.countP_eq_length_filter]
    induction captures with
    | nil => rfl
    | cons c captures ih =>
      have ih := ih (fun c hc => h c (List.mem_cons_of_mem _ hc))
      rw [List.countP_cons, ih]
      simp only [tally, List.map_cons, List.sum_cons, isBroken, decide_eq_true_eq]
      omega
  rw [hbroken, ← tally_add, ← tally_add, ← tally_add, ← tally_add]
  apply tally_congr
  intro pkt hmem
  obtain ⟨c,hc,rfl⟩ := List.mem_map.mp hmem
  exact (ethernet_accounted (h c hc)).symm

/-- At every point of every run the books of the statistics balance. -/
theorem runStats_accounted (captures : List Capture) (hpackets : captures.length < 2 ^ 64)
    (hbytes : (captures.map fun c => c.packet.capturedLength).sum < 2 ^ 64) (seen : List Capture)
    (hseen : seen <+: captures) : Accounted seen (runStats (seen.map Capture.packet)) := by
  have hlen : (seen.map Capture.packet).length < 2 ^ 64 := by
    rw [List.length_map]
    exact lt_of_le_of_lt hseen.length_le hpackets
  have hcaptured : tally Packet.capturedLength (seen.map Capture.packet) < 2 ^ 64 := by
    rw [tally_map]
    exact lt_of_le_of_lt (tally_mono _ hseen) hbytes
  have hex := runStats_exact hlen
  have hprotocols := tally_flows (seen.map Capture.packet)
  have hle := @tally_packets_le seen _ (fun _ => 1) (fun _ => transports_arp_le)
  have hflows := @tally_packets_le seen (admitted (seen.map Capture.packet) fun _ => 1) _
    (fun pkt htags => (admitted_le _ pkt).trans (hasKey_eq htags).le)
  have htotal : (runStats (seen.map Capture.packet)).tcpPackets.toNat +
      (runStats (seen.map Capture.packet)).udpPackets.toNat + (runStats (seen.map Capture.packet)).icmpPackets.toNat +
      (runStats (seen.map Capture.packet)).icmpv6Packets.toNat + (runStats (seen.map Capture.packet)).arpPackets.toNat ≤
      (runStats (seen.map Capture.packet)).totalPackets.toNat := by
    rw [hex.tcp, hex.udp, hex.icmp, hex.icmpv6, hex.arp, hex.total, ← hprotocols]
    exact hle
  refine ⟨htotal,otherPackets_toNat htotal,?_,?_,?_,?_,?_,?_⟩
  · rw [hex.tcp, hex.udp, hex.icmp, hex.icmpv6, hex.ipv4, hex.ipv6, ← tally_transports, ← tally_add]
    exact tally_packets_le (fun _ => transports_le)
  · rw [hex.dns, hex.tcp, hex.udp, ← tally_add]
    exact tally_packets_le (fun _ => carriesDns_le)
  · intro hethernet
    rw [hex.total, hex.ipv4, hex.ipv6, hex.arp, hex.unsupported]
    exact tally_ethernet hethernet
  · rw [sum_packets hlen, hex.tcp, hex.udp, hex.icmp, hex.icmpv6, hex.arp, ← hprotocols]
    exact hflows
  · intro hroom
    rw [sum_packets hlen, hex.tcp, hex.udp, hex.icmp, hex.icmpv6, hex.arp, ← hprotocols]
    apply tally_congr
    intro pkt hmem
    obtain ⟨c,-,rfl⟩ := List.mem_map.mp hmem
    rw [admitted_eq _ hroom hmem, hasKey_eq (walkRule_tagsConsistent c).packet]
  · rw [sum_bytes hcaptured, runStats_captured hcaptured]
    apply tally_le
    intro pkt _
    apply (admitted_le _ pkt).trans
    split
    · exact le_rfl
    · exact Nat.zero_le _

end Run

theorem runStats_accounted_queries :
    Accounted [DnsTransports.queryOverUdp] (runStats ([DnsTransports.queryOverUdp].map Capture.packet)) :=
  runStats_accounted [DnsTransports.queryOverUdp,DnsTransports.queryOverTcp] (by decide) (by decide +kernel) _
    ⟨[DnsTransports.queryOverTcp],rfl⟩

end Netscope.Accounting
