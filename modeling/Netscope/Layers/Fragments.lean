import Netscope.Layers.ExtensionChain
import Netscope.Layers.LayerFrames
import Netscope.Stats.FlowTable

/-! # Fragments after the first

A fragment with a non-zero offset carries no transport header. The IPv4 path stops
at such a fragment; the IPv6 path skips the Fragment header like any other and goes
on to the transport layer.
-/
namespace Netscope.Fragments
open ByteString Layers ExtensionChain

/-! ## The Fragment headers of a walk -/

/-- The offsets of the Fragment headers that `skipExtensionHeaders` passes over. -/
def walkedFragments (data : Bytes) : ℕ → ℕ → UInt8 → List ℕ
  | 0, _, _ => []
  | budget + 1, offset, nextHeader =>
    if isOptionsHeader nextHeader then
      if offset + 2 ≤ data.length ∧ offset + optionsHeaderLength data offset ≤ data.length then
        walkedFragments data budget (offset + optionsHeaderLength data offset) (u8 data offset)
      else []
    else if nextHeader = ipv6NextFragment then
      if offset + 8 ≤ data.length then offset :: walkedFragments data budget (offset + 8) (u8 data offset) else []
    else []

/-- The 13-bit offset field of the Fragment header at `offset`. -/
def fragmentOffsetAt (data : Bytes) (offset : ℕ) : UInt16 := u16 data (offset + 2) >>> 3

/-- Where the bytes after the IPv6 header of a frame start, and what they are. -/
def ipv6Start (c : Capture) : Option (ℕ × UInt8) :=
  if c.linkType ≠ .ethernet then none
  else
    match nsParseEthernet c.data with
    | .error _ => none
    | .ok (eth,offset) =>
      if eth.ethertype ≠ ethertypeIpv6 then none
      else
        match nsParseIpv6 (c.data.drop offset) with
        | .error _ => none
        | .ok (info,headerLen) => some (offset + headerLen,info.nextHeader)

/-- Whether the walked extension headers hold a Fragment header with a non-zero offset. -/
def hasLaterFragment (c : Capture) : Bool :=
  match ipv6Start c with
  | none => false
  | some (offset,nextHeader) =>
    (walkedFragments c.data ipv6MaxExtensionHeaders offset nextHeader).any fun k => fragmentOffsetAt c.data k ≠ 0

/-! ## The transport header after a chain -/

/-- The IPv6 header of an Ethernet frame lies at `offset`, behind the type or behind a tag. -/
structure Ipv6HeaderAt (c : Capture) (offset : ℕ) : Prop where
  linkType : c.linkType = .ethernet
  announced : (offset = 14 ∧ u16 c.data 12 = ethertypeIpv6) ∨
    (offset = 18 ∧ u16 c.data 12 = ethertypeVlan ∧ u16 c.data 16 = ethertypeIpv6)
  inside : offset + 40 ≤ c.data.length
  version : u8 c.data offset >>> 4 = 6

/-- A header of the protocol lies at `offset`: 6 is TCP, 17 UDP, 1 ICMP and 58 ICMPv6. -/
inductive TransportHeaderAt (data : Bytes) (offset : ℕ) : UInt8 → Prop where
  | tcp (hoffset : (5 : UInt8) ≤ u8 data (offset + 12) >>> 4)
      (hin : offset + (u8 data (offset + 12) >>> 4).toNat * 4 ≤ data.length) : TransportHeaderAt data offset 6
  | udp (hin : offset + 8 ≤ data.length) (hlength : 8 ≤ u16 data (offset + 4)) : TransportHeaderAt data offset 17
  | icmp (hin : offset + 4 ≤ data.length) (hecho : u8 data offset = 0 ∨ u8 data offset = 8 → offset + 8 ≤ data.length) :
      TransportHeaderAt data offset 1
  | icmpv6 (hin : offset + 4 ≤ data.length)
      (hecho : u8 data offset = 128 ∨ u8 data offset = 129 → offset + 8 ≤ data.length) : TransportHeaderAt data offset 58

/-- Fewer than eight extension headers follow the IPv6 header, and a transport header follows them. -/
def ReachesTransport (c : Capture) : Prop :=
  ∃ offset, Ipv6HeaderAt c offset ∧ ∃ n < 8, ∃ stop last,
    Chain c.data (offset + 40) (u8 c.data (offset + 6)) n stop last ∧ TransportHeaderAt c.data stop last

section Headers
variable {data : Bytes} {offset : ℕ} {proto : UInt8}

theorem TransportHeaderAt.isUpper (h : TransportHeaderAt data offset proto) : IsUpper proto := by
  cases h <;> decide

theorem parseEcho_toBool_iff {isEcho : UInt8 → Bool} :
    (parseEcho isEcho (data.drop offset)).toBool = true ↔
      offset + 4 ≤ data.length ∧ (isEcho (u8 data offset) = true → offset + 8 ≤ data.length) := by
  simp only [toBool_eq_true, parseEcho_eq_ok_iff, exists_or, exists_and_left, exists_eq, and_true, List.length_drop, u8_drop,
    Nat.add_zero]
  cases isEcho (u8 data offset)
  · simp
    omega
  · simp
    omega

/-- The parser of a protocol accepts exactly the bytes that start with its header. -/
theorem transportAccepts_iff : transportAccepts (data.drop offset) proto = true ↔ TransportHeaderAt data offset proto := by
  constructor
  · intro h
    unfold transportAccepts at h
    split_ifs at h with htcp hudp hicmp hicmpv6
    · obtain ⟨⟨info,len⟩,hm⟩ := toBool_eq_true.mp h
      obtain ⟨h20,hoffset,hin,-⟩ := nsParseTcp_eq_ok_iff.mp hm
      rw [List.length_drop, u8_drop] at hin
      rw [u8_drop] at hoffset
      rw [List.length_drop] at h20
      subst htcp
      exact .tcp hoffset (by omega)
    · obtain ⟨info,hm⟩ := toBool_eq_true.mp h
      obtain ⟨hin,hlength,-⟩ := nsParseUdp_eq_ok_iff.mp hm
      rw [List.length_drop] at hin
      rw [u16_drop] at hlength
      subst hudp
      exact .udp (by omega) hlength
    · obtain ⟨hin,hecho⟩ := parseEcho_toBool_iff.mp h
      subst hicmp
      exact .icmp hin fun hcase => hecho (by simp [icmpIsEcho, hcase.symm])
    · obtain ⟨hin,hecho⟩ := parseEcho_toBool_iff.mp h
      subst hicmpv6
      exact .icmpv6 hin fun hcase => hecho (by simp [icmpv6IsEcho, hcase])
  · rintro (⟨hoffset,hin⟩ | ⟨hin,hlength⟩ | ⟨hin,hecho⟩ | ⟨hin,hecho⟩)
    · have hge : 5 ≤ (u8 data (offset + 12) >>> 4).toNat := UInt8.le_iff_toNat_le.mp hoffset
      refine toBool_eq_true.mpr ⟨_,nsParseTcp_eq_ok_iff.mpr ⟨?_,?_,?_,rfl⟩⟩
      · rw [List.length_drop]
        omega
      · rwa [u8_drop]
      · rw [List.length_drop, u8_drop]
        omega
    · refine toBool_eq_true.mpr ⟨_,nsParseUdp_eq_ok_iff.mpr ⟨?_,?_,rfl⟩⟩
      · rw [List.length_drop]
        omega
      · rwa [u16_drop]
    · refine parseEcho_toBool_iff.mpr ⟨hin,fun h => hecho ?_⟩
      simpa [icmpIsEcho, or_comm] using h
    · refine parseEcho_toBool_iff.mpr ⟨hin,fun h => hecho ?_⟩
      simpa [icmpv6IsEcho] using h

/-- The version is in the upper half of the first byte. -/
theorem version_eq (d : Bytes) (k : ℕ) : (u32 d k >>> 28).toUInt8 = u8 d k >>> 4 := by
  have hword : (u32 d k).toNat = (u8 d k).toNat * 2 ^ 24 + (u8 d (k + 1)).toNat * 2 ^ 16 + (u8 d (k + 2)).toNat * 2 ^ 8 +
      (u8 d (k + 3)).toNat := toNat_join32 _ _ _ _
  have h₀ := (u8 d k).toNat_lt
  have h₁ := (u8 d (k + 1)).toNat_lt
  have h₂ := (u8 d (k + 2)).toNat_lt
  have h₃ := (u8 d (k + 3)).toNat_lt
  apply UInt8.toNat_inj.mp
  rw [UInt32.toNat_toUInt8, UInt32.toNat_shiftRight, UInt8.toNat_shiftRight, Nat.shiftRight_eq_div_pow,
    Nat.shiftRight_eq_div_pow]
  simp only [UInt32.reduceToNat, UInt8.reduceToNat, Nat.reduceMod]
  omega

end Headers

/-- Nothing above the network layer has been decoded. -/
def Undecoded (pkt : Packet) : Prop := pkt.transportProto = .unknown ∧ pkt.hasDns = false

section Transport
variable {p : Packet} {data : Bytes} {offset : ℕ} {proto : UInt8}

theorem setPayload_undecoded (hp : Undecoded p) (n k : ℕ) : Undecoded (nsPacketSetPayload p n k) := by
  rw [nsPacketSetPayload_eq]
  exact hp

theorem markMalformed_undecoded (hp : Undecoded p) (reason : MalformedReason) :
    Undecoded (nsPacketMarkMalformed p reason) := hp

theorem setNet_undecoded (hp : Undecoded p) (net : NetUnion) (networkProto : Proto) :
    Undecoded { p with net := net, networkProto := networkProto } := hp

/-- A rejected transport header leaves the packet without one. -/
theorem nsPacketParseTransport_rejected (hp : Undecoded p) (h : transportAccepts (data.drop offset) proto = false) :
    Undecoded (nsPacketParseTransport p data offset proto) := by
  have houtcome := nsPacketParseTransport_outcome p data offset proto
  generalize nsPacketParseTransport p data offset proto = q at houtcome ⊢
  cases houtcome with
  | tcp hm | udp hm | icmp hm | icmpv6 hm => simp [hm, Except.toBool] at h
  | rejected _ reason => exact hp
  | unsupported => exact hp

/-- An accepted transport header is reported. -/
theorem nsPacketParseTransport_accepted (h : transportAccepts (data.drop offset) proto = true) :
    (nsPacketParseTransport p data offset proto).transportProto ≠ .unknown := by
  have houtcome := nsPacketParseTransport_outcome p data offset proto
  generalize nsPacketParseTransport p data offset proto = q at houtcome ⊢
  cases houtcome with
  | tcp | udp =>
    rw [(setPayload_dns_keeps _ data _ _ _).transportProto]
    exact nofun
  | icmp | icmpv6 => exact nofun
  | rejected hno | unsupported hno => exact absurd h (by simp [hno])

end Transport

/-! ## The network step -/

section Network
variable {p : Packet} (hp : Undecoded p) (hn : p.networkProto = .unknown) {data : Bytes} {offset : ℕ}

include hp hn in
/-- The IPv4 path stops at every fragment but the first. -/
theorem nsPacketParseIpv4_undecoded (hnet : (nsPacketParseIpv4 p data offset).networkProto = .ipv4)
    (hlater : (nsPacketParseIpv4 p data offset).net.getIpv4.fragmentOffset ≠ 0) :
    Undecoded (nsPacketParseIpv4 p data offset) := by
  cases hm : nsParseIpv4 (data.drop offset) with
  | error e =>
    have herr : (nsPacketParseIpv4 p data offset).networkProto = p.networkProto := by
      unfold nsPacketParseIpv4
      rw [hm]
      cases e <;> rfl
    rw [herr, hn] at hnet
    cases hnet
  | ok m =>
    rw [(nsPacketParseIpv4_sameNetwork p data offset hm).net] at hlater
    rw [nsPacketParseIpv4_stopped p hm ((nsParseIpv4_stops_iff hm).mpr hlater)]
    exact setPayload_undecoded (setNet_undecoded hp _ _) _ _

include hn in
theorem nsPacketParseIpv4_networkProto : (nsPacketParseIpv4 p data offset).networkProto ≠ .ipv6 := by
  cases hm : nsParseIpv4 (data.drop offset) with
  | error e =>
    unfold nsPacketParseIpv4
    rw [hm]
    cases e <;> simp [nsPacketMarkMalformed, hn]
  | ok m =>
    rw [(nsPacketParseIpv4_sameNetwork p data offset hm).networkProto]
    exact nofun

include hn in
theorem nsPacketParseArp_networkProto (data : Bytes) (offset : ℕ) :
    (nsPacketParseArp p data offset).networkProto = .arp ∨ (nsPacketParseArp p data offset).networkProto = .unknown := by
  unfold nsPacketParseArp
  rw [nsPacketSetPayload_eq]
  cases nsParseArp (data.drop offset) with
  | ok info => exact .inl rfl
  | error e => cases e <;> exact .inr hn

end Network

theorem linkPacket_undecoded (c : Capture) (eth : EthInfo) (offset : ℕ) : Undecoded (linkPacket c eth offset) :=
  setPayload_undecoded (p := { initialPacket c.data c.originalLength c.timestamp c.number c.linkType with
    eth := eth, hasEth := true }) ⟨rfl,rfl⟩ _ _

theorem linkPacket_networkProto (c : Capture) (eth : EthInfo) (offset : ℕ) :
    (linkPacket c eth offset).networkProto = .unknown :=
  (setPayload_keeps { initialPacket c.data c.originalLength c.timestamp c.number c.linkType with
    eth := eth, hasEth := true } _ _).networkProto

section Frame
variable {c : Capture}

/-- The steps behind `ipv6Start`. -/
theorem ipv6Start_eq_some {start : ℕ} {nextHeader : UInt8} (h : ipv6Start c = some (start,nextHeader)) :
    ∃ eth offset info headerLen, c.linkType = .ethernet ∧ nsParseEthernet c.data = .ok (eth,offset) ∧
      eth.ethertype = ethertypeIpv6 ∧ nsParseIpv6 (c.data.drop offset) = .ok (info,headerLen) ∧
      start = offset + headerLen ∧ nextHeader = info.nextHeader := by
  unfold ipv6Start at h
  split at h
  · cases h
  · rename_i hl
    split at h
    · cases h
    · rename_i eth offset hm
      split at h
      · cases h
      · rename_i htype
        split at h
        · cases h
        · rename_i info headerLen hm6
          obtain ⟨rfl,rfl⟩ := Prod.mk.inj (Option.some.inj h)
          exact ⟨eth,offset,info,headerLen,not_not.mp hl,hm,not_not.mp htype,hm6,rfl,rfl⟩

/-- The IPv6 header is 40 bytes long and has the next-header number at its offset 6. -/
theorem ipv6Start_eq_some_iff {start : ℕ} {nextHeader : UInt8} :
    ipv6Start c = some (start,nextHeader) ↔
      ∃ offset, Ipv6HeaderAt c offset ∧ start = offset + 40 ∧ nextHeader = u8 c.data (offset + 6) := by
  constructor
  · intro h
    obtain ⟨eth,offset,info,headerLen,hl,hm,htype,hm6,rfl,rfl⟩ := ipv6Start_eq_some h
    obtain ⟨hlen,hversion,hr⟩ := nsParseIpv6_eq_ok_iff.mp hm6
    obtain ⟨rfl,rfl⟩ := Prod.mk.inj hr
    rw [List.length_drop] at hlen
    rw [version_eq, u8_drop, Nat.add_zero] at hversion
    refine ⟨offset,⟨hl,?_,by omega,hversion⟩,rfl,u8_drop _ _ _⟩
    rcases nsParseEthernet_eq_ok_iff.mp hm with ⟨_,hvlan,heth⟩ | ⟨_,hvlan,heth⟩
    · obtain ⟨rfl,rfl⟩ := Prod.mk.inj heth
      exact .inr ⟨rfl,hvlan,htype⟩
    · obtain ⟨rfl,rfl⟩ := Prod.mk.inj heth
      exact .inl ⟨rfl,htype⟩
  · rintro ⟨offset,⟨hl,hannounced,hlen,hversion⟩,rfl,rfl⟩
    have hm6 : nsParseIpv6 (c.data.drop offset) = .ok (ipv6Fields (c.data.drop offset),40) := by
      refine nsParseIpv6_eq_ok_iff.mpr ⟨?_,?_,rfl⟩
      · rw [List.length_drop]
        omega
      · rwa [version_eq, u8_drop, Nat.add_zero]
    have hnext : (ipv6Fields (c.data.drop offset)).nextHeader = u8 c.data (offset + 6) := u8_drop _ _ _
    have hm : ∃ eth, nsParseEthernet c.data = .ok (eth,offset) ∧ eth.ethertype = ethertypeIpv6 := by
      rcases hannounced with ⟨rfl,htype⟩ | ⟨rfl,hvlan,htype⟩
      · refine ⟨_,nsParseEthernet_eq_ok_iff.mpr (.inr ⟨by omega,?_,rfl⟩),htype⟩
        rw [htype]
        decide
      · exact ⟨_,nsParseEthernet_eq_ok_iff.mpr (.inl ⟨by omega,hvlan,rfl⟩),htype⟩
    obtain ⟨eth,hm,htype⟩ := hm
    simp [ipv6Start, hl, hm, htype, hm6, hnext]

/-- The chain reaches a transport header when the walk ends at bytes that read as one. -/
theorem reachesTransport_iff {start : ℕ} {nextHeader : UInt8} (h : ipv6Start c = some (start,nextHeader)) :
    ReachesTransport c ↔ ∃ stop last, nsIpv6SkipExtensionHeaders c.data start nextHeader = (true,stop,last) ∧
      transportAccepts (c.data.drop stop) last = true := by
  constructor
  · rintro ⟨offset,hheader,n,hn,stop,last,chain,htransport⟩
    have hstart := ipv6Start_eq_some_iff.mpr ⟨offset,hheader,rfl,rfl⟩
    obtain ⟨rfl,rfl⟩ := Prod.mk.inj (Option.some.inj (h.symm.trans hstart))
    exact ⟨stop,last,skipExtensionHeaders_eq_true_iff.mpr ⟨n,hn,chain,htransport.isUpper⟩,transportAccepts_iff.mpr htransport⟩
  · rintro ⟨stop,last,hs,haccepts⟩
    obtain ⟨offset,hheader,rfl,rfl⟩ := ipv6Start_eq_some_iff.mp h
    obtain ⟨n,hn,chain,_⟩ := skipExtensionHeaders_eq_true_iff.mp hs
    exact ⟨offset,hheader,n,hn,stop,last,chain,transportAccepts_iff.mp haccepts⟩

/-- An IPv6 packet reports a transport header exactly when its chain reaches one. -/
theorem packet_of_ipv6Start {start : ℕ} {nextHeader : UInt8} (h : ipv6Start c = some (start,nextHeader)) :
    c.packet.networkProto = .ipv6 ∧ (ReachesTransport c → c.packet.transportProto ≠ .unknown) ∧
      (¬ReachesTransport c → Undecoded c.packet) := by
  rw [reachesTransport_iff h]
  obtain ⟨eth,offset,info,headerLen,hl,hm,htype,hm6,rfl,rfl⟩ := ipv6Start_eq_some h
  have hpkt : c.packet = nsPacketParseIpv6 (linkPacket c eth offset) c.data offset := by
    rw [packet_of_ethernet hl hm, htype]
    rfl
  have hnet := setNet_undecoded (linkPacket_undecoded c eth offset) (.ipv6 info) .ipv6
  rw [hpkt]
  refine ⟨(nsPacketParseIpv6_sameNetwork _ c.data offset hm6).networkProto,?_⟩
  rcases hs : nsIpv6SkipExtensionHeaders c.data (offset + headerLen) info.nextHeader with ⟨accepted,extOffset,proto⟩
  cases accepted with
  | false =>
    rw [nsPacketParseIpv6_rejected _ hm6 hs]
    exact ⟨nofun,fun _ => setPayload_undecoded (markMalformed_undecoded hnet _) _ _⟩
  | true =>
    rw [nsPacketParseIpv6_accepted _ hm6 hs]
    constructor
    · rintro ⟨stop,last,heq,haccepts⟩
      obtain ⟨-,rfl,rfl⟩ : true = true ∧ extOffset = stop ∧ proto = last := by simpa using heq
      exact nsPacketParseTransport_accepted haccepts
    · intro hno
      refine nsPacketParseTransport_rejected (setPayload_undecoded hnet _ _) (Bool.eq_false_iff.mpr fun haccepts => ?_)
      exact hno ⟨extOffset,proto,rfl,haccepts⟩

/-- Any other packet is not IPv6, and stops at a later IPv4 fragment. -/
theorem packet_of_not_ipv6Start (h : ipv6Start c = none) :
    c.packet.networkProto ≠ .ipv6 ∧
      (c.packet.networkProto = .ipv4 → c.packet.net.getIpv4.fragmentOffset ≠ 0 → Undecoded c.packet) := by
  by_cases hl : c.linkType = .ethernet
  · cases hm : nsParseEthernet c.data with
    | error e =>
      rw [packet_of_error hl hm]
      exact ⟨nofun,nofun⟩
    | ok m =>
      obtain ⟨eth,offset⟩ := m
      have hn := linkPacket_networkProto c eth offset
      have hp := linkPacket_undecoded c eth offset
      rw [packet_of_ethernet hl hm]
      unfold nsPacketParseNetwork
      split
      · exact ⟨nsPacketParseIpv4_networkProto hn,nsPacketParseIpv4_undecoded hp hn⟩
      · split
        · rename_i htype
          cases hm6 : nsParseIpv6 (c.data.drop offset) with
          | ok m6 => simp [ipv6Start, hl, hm, htype, hm6] at h
          | error e =>
            unfold nsPacketParseIpv6
            rw [hm6]
            cases e <;> simp [nsPacketMarkMalformed, hn]
        · split
          · rcases nsPacketParseArp_networkProto hn c.data offset with harp | harp
            · simp [harp]
            · simp [harp]
          · simp [hn]
  · rw [packet_of_unknown hl]
    exact ⟨nofun,nofun⟩

end Frame

/-! ## The rule -/

/-- The packet is an IP fragment other than the first. -/
def IsLaterFragment (c : Capture) : Prop :=
  (c.packet.networkProto = .ipv4 ∧ c.packet.net.getIpv4.fragmentOffset ≠ 0) ∨
    (c.packet.networkProto = .ipv6 ∧ hasLaterFragment c = true)

/-- No transport counter and no flow changes. -/
structure SameTransportStats (s t : Stats) : Prop where
  tcpPackets : t.tcpPackets = s.tcpPackets
  udpPackets : t.udpPackets = s.udpPackets
  icmpPackets : t.icmpPackets = s.icmpPackets
  icmpv6Packets : t.icmpv6Packets = s.icmpv6Packets
  dnsPackets : t.dnsPackets = s.dnsPackets
  flows : t.flows = s.flows
  flowCount : t.flowCount = s.flowCount

/-- Nothing above the network layer is decoded or counted. -/
structure StopsAtNetwork (pkt : Packet) : Prop where
  transportProto : pkt.transportProto = .unknown
  hasDns : pkt.hasDns = false
  stats : ∀ stats, SameTransportStats stats (nsStatsUpdate stats pkt)

/-- An undecoded packet other than ARP is counted in no transport counter and no flow. -/
theorem nsStatsUpdate_undecoded {pkt : Packet} (hp : Undecoded pkt) (harp : pkt.networkProto ≠ .arp) (stats : Stats) :
    SameTransportStats stats (nsStatsUpdate stats pkt) := by
  have hends : extractEndpoints pkt = none := by
    have hports : transportPorts pkt = none := by simp only [transportPorts, hp.1]
    unfold extractEndpoints
    rw [if_neg harp, hports]
    cases networkAddresses pkt <;> rfl
  have hupdate : nsStatsUpdate stats pkt = countPacket stats pkt := by
    unfold nsStatsUpdate
    rw [hends]
  have hcount : countPacket stats pkt = countNetwork (countTotals stats pkt) pkt := by
    simp only [countPacket, countTransport, countDns, hp.1, hp.2, Bool.false_eq_true, ↓reduceIte]
  obtain ⟨hflows,hflowCount⟩ := FlowTable.countPacket_flows stats pkt
  rw [hupdate]
  refine ⟨?_,?_,?_,?_,?_,hflows,hflowCount⟩
  all_goals
    rw [hcount, countNetwork]
    split
    · rfl
    · rfl
    · rfl
    · split <;> rfl

theorem Undecoded.stopsAtNetwork {pkt : Packet} (hp : Undecoded pkt) (harp : pkt.networkProto ≠ .arp) :
    StopsAtNetwork pkt :=
  ⟨hp.1,hp.2,nsStatsUpdate_undecoded hp harp⟩

/-- The rule is broken exactly by the IPv6 fragments after the first whose bytes read as a transport header. -/
theorem laterFragment_stopsAtNetwork_iff (c : Capture) :
    (IsLaterFragment c → StopsAtNetwork c.packet) ↔ ¬(hasLaterFragment c = true ∧ ReachesTransport c) := by
  cases hstart : ipv6Start c with
  | none =>
    obtain ⟨h6,h4⟩ := packet_of_not_ipv6Start hstart
    have hno : hasLaterFragment c = false := by simp only [hasLaterFragment, hstart]
    refine ⟨fun _ hbad => by simp [hno] at hbad,fun _ hlater => ?_⟩
    rcases hlater with ⟨hnet,hoffset⟩ | ⟨hnet,_⟩
    · exact (h4 hnet hoffset).stopsAtNetwork (by simp [hnet])
    · exact absurd hnet h6
  | some s =>
    obtain ⟨h6,haccepted,hrejected⟩ := packet_of_ipv6Start hstart
    constructor
    · rintro hrule ⟨hlater,hreach⟩
      exact haccepted hreach (hrule (.inr ⟨h6,hlater⟩)).transportProto
    · intro hgood hlater
      have hlater6 : hasLaterFragment c = true := by
        rcases hlater with ⟨h4,_⟩ | ⟨_,h⟩
        · rw [h6] at h4
          cases h4
        · exact h
      have hreach : ¬ReachesTransport c := fun hreach => hgood ⟨hlater6,hreach⟩
      exact (hrejected hreach).stopsAtNetwork (by simp [h6])

/-- An IPv6 fragment at offset 1 whose eight bytes of data read as a UDP header. -/
def laterUdpFragment : Capture where
  data := [1,2,3,4,5,6,7,8,9,10,11,12,0x86,0xDD,
    0x60,0,0,0,0,16,44,64,
    0x20,1,0x0d,0xb8,0,0,0,0,0,0,0,0,0,0,0,1,
    0x20,1,0x0d,0xb8,0,0,0,0,0,0,0,0,0,0,0,2,
    17,0,0,8,0,0,0,1,
    0x30,0x39,0,80,0,8,0,0]
  originalLength := 70
  timestamp := ⟨0,0⟩
  number := 1
  linkType := .ethernet

theorem laterUdpFragment_decoded : ¬(IsLaterFragment laterUdpFragment → StopsAtNetwork laterUdpFragment.packet) := by
  have hnet : laterUdpFragment.packet.networkProto = .ipv6 := by decide +kernel
  have hlater : hasLaterFragment laterUdpFragment = true := by decide +kernel
  have hudp : laterUdpFragment.packet.transportProto = .udp := by decide +kernel
  intro hrule
  have hstop := hrule (.inr ⟨hnet,hlater⟩)
  rw [hstop.transportProto] at hudp
  cases hudp

end Netscope.Fragments
