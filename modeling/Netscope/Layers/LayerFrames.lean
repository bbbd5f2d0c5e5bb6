import Netscope.Layers.HeaderSpecs

/-! # What each layer leaves alone

Every step of the layer walk writes the fields of its own layer and the payload view
and keeps the layers decoded before it.
-/
namespace Netscope.Layers
open ByteString

/-- The link and network layers of two packets agree. -/
structure SameNetwork (p q : Packet) : Prop where
  hasEth : q.hasEth = p.hasEth
  eth : q.eth = p.eth
  networkProto : q.networkProto = p.networkProto
  net : q.net = p.net

/-- All decoded layers of two packets agree, and so does their verdict. -/
structure SameLayers (p q : Packet) : Prop extends SameNetwork p q where
  transportProto : q.transportProto = p.transportProto
  transport : q.transport = p.transport
  malformed : q.malformed = p.malformed
  malformedReason : q.malformedReason = p.malformedReason

namespace SameLayers

theorem refl (p : Packet) : SameLayers p p := ⟨⟨rfl,rfl,rfl,rfl⟩,rfl,rfl,rfl,rfl⟩

theorem symm {p q : Packet} (h : SameLayers p q) : SameLayers q p :=
  ⟨⟨h.hasEth.symm,h.eth.symm,h.networkProto.symm,h.net.symm⟩,h.transportProto.symm,h.transport.symm,h.malformed.symm,
    h.malformedReason.symm⟩

theorem trans {p q r : Packet} (h : SameLayers p q) (h' : SameLayers q r) : SameLayers p r :=
  ⟨⟨h'.hasEth.trans h.hasEth,h'.eth.trans h.eth,h'.networkProto.trans h.networkProto,h'.net.trans h.net⟩,
    h'.transportProto.trans h.transportProto,h'.transport.trans h.transport,h'.malformed.trans h.malformed,
    h'.malformedReason.trans h.malformedReason⟩

end SameLayers

/-- The link layers of two packets agree. -/
def SameLink (p q : Packet) : Prop := q.hasEth = p.hasEth ∧ q.eth = p.eth

/-- Setting the payload leaves the layers alone. -/
theorem setPayload_keeps (p : Packet) (n k : ℕ) : SameLayers p (nsPacketSetPayload p n k) := by
  rw [nsPacketSetPayload_eq]
  exact ⟨⟨rfl,rfl,rfl,rfl⟩,rfl,rfl,rfl,rfl⟩

/-- Decoding DNS leaves the other layers alone. -/
theorem dnsIfApplicable_keeps (p : Packet) (data : Bytes) (k : ℕ) (srcPort dstPort : UInt16) :
    SameLayers p (nsPacketParseDnsIfApplicable p data k srcPort dstPort) := by
  unfold nsPacketParseDnsIfApplicable
  split
  · exact SameLayers.refl p
  · split
    · exact SameLayers.refl p
    · split
      · exact ⟨⟨rfl,rfl,rfl,rfl⟩,rfl,rfl,rfl,rfl⟩
      · exact SameLayers.refl p

/-- What follows an accepted port header leaves the layers alone. -/
theorem setPayload_dns_keeps (p : Packet) (data : Bytes) (k : ℕ) (srcPort dstPort : UInt16) :
    SameLayers p (nsPacketParseDnsIfApplicable (nsPacketSetPayload p data.length k) data k srcPort dstPort) :=
  (setPayload_keeps p data.length k).trans (dnsIfApplicable_keeps _ data k srcPort dstPort)

/-! ## The transport step -/

/-- Whether the parser of the protocol number accepts the bytes. -/
def transportAccepts (data : Bytes) (proto : UInt8) : Bool :=
  if proto = ipProtoTcp then (nsParseTcp data).toBool
  else if proto = ipProtoUdp then (nsParseUdp data).toBool
  else if proto = ipProtoIcmp then (nsParseIcmp data).toBool
  else if proto = ipProtoIcmpv6 then (nsParseIcmpv6 data).toBool
  else false

theorem toBool_eq_true {α : Type} {r : Parsed α} : r.toBool = true ↔ ∃ a, r = .ok a := by
  cases r <;> simp [Except.toBool]

@[simp] theorem transportAccepts_tcp (data : Bytes) : transportAccepts data ipProtoTcp = (nsParseTcp data).toBool := rfl
@[simp] theorem transportAccepts_udp (data : Bytes) : transportAccepts data ipProtoUdp = (nsParseUdp data).toBool := rfl
@[simp] theorem transportAccepts_icmp (data : Bytes) : transportAccepts data ipProtoIcmp = (nsParseIcmp data).toBool := rfl
@[simp] theorem transportAccepts_icmpv6 (data : Bytes) :
    transportAccepts data ipProtoIcmpv6 = (nsParseIcmpv6 data).toBool := rfl

/-- Everything `nsPacketParseTransport` can do to a packet. -/
inductive TransportOutcome (p : Packet) (data : Bytes) (offset : ℕ) : UInt8 → Packet → Prop where
  | tcp {info : TcpInfo} {headerLen : ℕ} (h : nsParseTcp (data.drop offset) = .ok (info,headerLen)) :
      TransportOutcome p data offset ipProtoTcp (nsPacketParseDnsIfApplicable
        (nsPacketSetPayload { p with transport := .tcp info, transportProto := .tcp } data.length (offset + headerLen))
        data (offset + headerLen) info.sourcePort info.destinationPort)
  | udp {info : UdpInfo} (h : nsParseUdp (data.drop offset) = .ok info) :
      TransportOutcome p data offset ipProtoUdp (nsPacketParseDnsIfApplicable
        (nsPacketSetPayload { p with transport := .udp info, transportProto := .udp } data.length (offset + 8))
        data (offset + 8) info.sourcePort info.destinationPort)
  | icmp {info : IcmpInfo} (h : nsParseIcmp (data.drop offset) = .ok info) :
      TransportOutcome p data offset ipProtoIcmp { p with transport := .icmp info, transportProto := .icmp }
  | icmpv6 {info : IcmpInfo} (h : nsParseIcmpv6 (data.drop offset) = .ok info) :
      TransportOutcome p data offset ipProtoIcmpv6 { p with transport := .icmpv6 info, transportProto := .icmpv6 }
  | rejected {proto : UInt8} (h : transportAccepts (data.drop offset) proto = false) (reason : MalformedReason) :
      TransportOutcome p data offset proto (nsPacketMarkMalformed p reason)
  | unsupported {proto : UInt8} (h : transportAccepts (data.drop offset) proto = false) :
      TransportOutcome p data offset proto p

theorem nsPacketParseTransport_outcome (p : Packet) (data : Bytes) (offset : ℕ) (proto : UInt8) :
    TransportOutcome p data offset proto (nsPacketParseTransport p data offset proto) := by
  unfold nsPacketParseTransport
  by_cases htcp : proto = ipProtoTcp
  · subst htcp
    simp only [↓reduceIte]
    cases hm : nsParseTcp (data.drop offset) with
    | ok m => exact .tcp hm
    | error e =>
      have hno : transportAccepts (data.drop offset) ipProtoTcp = false := by rw [transportAccepts_tcp, hm]; rfl
      cases e <;> exact .rejected hno _
  · by_cases hudp : proto = ipProtoUdp
    · subst hudp
      simp only [htcp, ↓reduceIte]
      cases hm : nsParseUdp (data.drop offset) with
      | ok m => exact .udp hm
      | error e =>
        have hno : transportAccepts (data.drop offset) ipProtoUdp = false := by rw [transportAccepts_udp, hm]; rfl
        cases e <;> exact .rejected hno _
    · by_cases hicmp : proto = ipProtoIcmp
      · subst hicmp
        simp only [htcp, hudp, ↓reduceIte]
        cases hm : nsParseIcmp (data.drop offset) with
        | ok m => exact .icmp hm
        | error e => exact .rejected (by rw [transportAccepts_icmp, hm]; rfl) _
      · by_cases hicmpv6 : proto = ipProtoIcmpv6
        · subst hicmpv6
          simp only [htcp, hudp, hicmp, ↓reduceIte]
          cases hm : nsParseIcmpv6 (data.drop offset) with
          | ok m => exact .icmpv6 hm
          | error e => exact .rejected (by rw [transportAccepts_icmpv6, hm]; rfl) _
        · simp only [htcp, hudp, hicmp, hicmpv6, ↓reduceIte]
          exact .unsupported (by simp [transportAccepts, htcp, hudp, hicmp, hicmpv6])

/-- The transport layer leaves the layers below it alone. -/
theorem nsPacketParseTransport_sameNetwork (p : Packet) (data : Bytes) (offset : ℕ) (proto : UInt8) :
    SameNetwork p (nsPacketParseTransport p data offset proto) := by
  have houtcome := nsPacketParseTransport_outcome p data offset proto
  generalize nsPacketParseTransport p data offset proto = q at houtcome ⊢
  cases houtcome with
  | @tcp info headerLen _ =>
    obtain ⟨hasEth,eth,networkProto,net⟩ := (setPayload_dns_keeps { p with transport := .tcp info, transportProto := .tcp }
      data (offset + headerLen) info.sourcePort info.destinationPort).toSameNetwork
    exact ⟨hasEth,eth,networkProto,net⟩
  | @udp info _ =>
    obtain ⟨hasEth,eth,networkProto,net⟩ := (setPayload_dns_keeps { p with transport := .udp info, transportProto := .udp }
      data (offset + 8) info.sourcePort info.destinationPort).toSameNetwork
    exact ⟨hasEth,eth,networkProto,net⟩
  | icmp | icmpv6 | rejected | unsupported => exact ⟨rfl,rfl,rfl,rfl⟩

section Network
variable (p : Packet) (data : Bytes) (offset : ℕ)

/-- Past an accepted IPv4 header the link and network layers are settled. -/
theorem nsPacketParseIpv4_sameNetwork {info : Ipv4Info} {headerLen : ℕ}
    (hm : nsParseIpv4 (data.drop offset) = .ok (info,headerLen)) :
    SameNetwork { p with net := .ipv4 info, networkProto := .ipv4 } (nsPacketParseIpv4 p data offset) := by
  have hset := setPayload_keeps { p with net := .ipv4 info, networkProto := .ipv4 } data.length (offset + headerLen)
  cases hf : info.isFragment && !info.isInitialFragment with
  | true =>
    rw [nsPacketParseIpv4_stopped p hm hf]
    exact hset.toSameNetwork
  | false =>
    have ht := nsPacketParseTransport_sameNetwork
      (nsPacketSetPayload { p with net := .ipv4 info, networkProto := .ipv4 } data.length (offset + headerLen)) data
      (offset + headerLen) info.protocol
    rw [nsPacketParseIpv4_continued p hm hf]
    exact ⟨ht.hasEth.trans hset.hasEth,ht.eth.trans hset.eth,ht.networkProto.trans hset.networkProto,ht.net.trans hset.net⟩

theorem nsPacketParseIpv4_sameLink : SameLink p (nsPacketParseIpv4 p data offset) := by
  cases hm : nsParseIpv4 (data.drop offset) with
  | error e =>
    unfold nsPacketParseIpv4
    rw [hm]
    cases e <;> exact ⟨rfl,rfl⟩
  | ok m =>
    have h := nsPacketParseIpv4_sameNetwork p data offset hm
    exact ⟨h.hasEth,h.eth⟩

/-- Past an accepted IPv6 header the link and network layers are settled. -/
theorem nsPacketParseIpv6_sameNetwork {info : Ipv6Info} {headerLen : ℕ}
    (hm : nsParseIpv6 (data.drop offset) = .ok (info,headerLen)) :
    SameNetwork { p with net := .ipv6 info, networkProto := .ipv6 } (nsPacketParseIpv6 p data offset) := by
  rcases hs : nsIpv6SkipExtensionHeaders data (offset + headerLen) info.nextHeader with ⟨accepted,extOffset,nextHeader⟩
  cases accepted with
  | false =>
    have hset := setPayload_keeps
      (nsPacketMarkMalformed { p with net := .ipv6 info, networkProto := .ipv6 } .ipv6ChainInvalid) data.length extOffset
    rw [nsPacketParseIpv6_rejected p hm hs]
    exact ⟨hset.hasEth,hset.eth,hset.networkProto,hset.net⟩
  | true =>
    have hset := setPayload_keeps { p with net := .ipv6 info, networkProto := .ipv6 } data.length extOffset
    have ht := nsPacketParseTransport_sameNetwork
      (nsPacketSetPayload { p with net := .ipv6 info, networkProto := .ipv6 } data.length extOffset) data extOffset nextHeader
    rw [nsPacketParseIpv6_accepted p hm hs]
    exact ⟨ht.hasEth.trans hset.hasEth,ht.eth.trans hset.eth,ht.networkProto.trans hset.networkProto,ht.net.trans hset.net⟩

theorem nsPacketParseIpv6_sameLink : SameLink p (nsPacketParseIpv6 p data offset) := by
  cases hm : nsParseIpv6 (data.drop offset) with
  | error e =>
    unfold nsPacketParseIpv6
    rw [hm]
    cases e <;> exact ⟨rfl,rfl⟩
  | ok m =>
    have h := nsPacketParseIpv6_sameNetwork p data offset hm
    exact ⟨h.hasEth,h.eth⟩

theorem nsPacketParseArp_sameLink : SameLink p (nsPacketParseArp p data offset) := by
  unfold nsPacketParseArp
  rw [nsPacketSetPayload_eq]
  cases nsParseArp (data.drop offset) with
  | ok info => exact ⟨rfl,rfl⟩
  | error e => cases e <;> exact ⟨rfl,rfl⟩

end Network

/-! ## From the link layer on -/

/-- The packet of a capture once its Ethernet header is decoded. -/
def linkPacket (c : Capture) (eth : EthInfo) (offset : ℕ) : Packet :=
  nsPacketSetPayload
    { initialPacket c.data c.originalLength c.timestamp c.number c.linkType with eth := eth, hasEth := true }
    c.data.length offset

section Link
variable {c : Capture}

theorem packet_of_ethernet {eth : EthInfo} {offset : ℕ} (hl : c.linkType = .ethernet)
    (hm : nsParseEthernet c.data = .ok (eth,offset)) :
    c.packet = nsPacketParseNetwork (linkPacket c eth offset) c.data offset eth.ethertype := by
  unfold Capture.packet nsPacketParse
  simp only [hl, hm, ne_eq, not_true_eq_false, ↓reduceIte, linkPacket]

theorem packet_of_error {e : ParseError} (hl : c.linkType = .ethernet) (hm : nsParseEthernet c.data = .error e) :
    c.packet = nsPacketMarkMalformed (initialPacket c.data c.originalLength c.timestamp c.number c.linkType)
      .ethernetTruncated := by
  unfold Capture.packet nsPacketParse
  simp only [hl, hm, ne_eq, not_true_eq_false, ↓reduceIte]

theorem packet_of_unknown (hl : c.linkType ≠ .ethernet) :
    c.packet = initialPacket c.data c.originalLength c.timestamp c.number c.linkType := by
  unfold Capture.packet nsPacketParse
  simp only [hl, ne_eq, not_false_eq_true, ↓reduceIte]

end Link

end Netscope.Layers
