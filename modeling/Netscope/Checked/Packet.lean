import Netscope.Checked.DnsMessages
import Netscope.Layers.HeaderSpecs

/-! # The layer walk with partial accesses

`ns_packet_parse` and its helpers over the checked parsers: every `data + offset`
is a pointer into the captured bytes, every `length - offset` is defined and no
offset wraps. The walk returns on every input and leaves a packet that stands for
the one of the functional model.
-/
namespace Netscope.Checked
open ByteString PartialMemory

/-- The packet behind `out`: its DNS structure is kept apart, as arrays. -/
structure Packet where
  layers : Netscope.Packet
  dns : Info

def nsPacketMarkMalformed (out : Packet) (reason : MalformedReason) : Packet :=
  { out with layers := Netscope.nsPacketMarkMalformed out.layers reason }

def nsPacketSetPayload (out : Packet) (data : Bytes) (length offset : ℕ) : Exec Packet := do
  if offset > length then return { out with layers := { out.layers with payload := none, payloadLength := 0 } }
  let _ ← advance data offset
  return { out with layers := { out.layers with payload := some offset, payloadLength := ← sizeSub length offset } }

def nsPacketParseDnsIfApplicable (out : Packet) (data : Bytes) (length offset : ℕ) (srcPort dstPort : UInt16) :
    Exec Packet := do
  if srcPort ≠ 53 ∧ dstPort ≠ 53 then return out
  if offset > length then return out
  let (status,dns) ← nsParseDns (← advance data offset) (← sizeSub length offset) out.dns
  let out := { out with dns := dns }
  if status = .ok then return { out with layers := { out.layers with hasDns := true } }
  return out

def parseTcpLayer (out : Packet) (data : Bytes) (length offset : ℕ) : Exec Packet := do
  let (status,info,headerLen) ← nsParseTcp (← advance data offset) (← sizeSub length offset) out.layers.transport.getTcp
  let out := { out with layers := { out.layers with transport := .tcp info } }
  if status = .ok then
    let out := { out with layers := { out.layers with transportProto := .tcp } }
    let appOffset ← sizeAdd offset (← use headerLen)
    let out ← nsPacketSetPayload out data length appOffset
    nsPacketParseDnsIfApplicable out data length appOffset info.sourcePort info.destinationPort
  else if status = .truncated then return nsPacketMarkMalformed out .tcpTruncated
  else return nsPacketMarkMalformed out .tcpInconsistent

def parseUdpLayer (out : Packet) (data : Bytes) (length offset : ℕ) : Exec Packet := do
  let (status,info) ← nsParseUdp (← advance data offset) (← sizeSub length offset) out.layers.transport.getUdp
  let out := { out with layers := { out.layers with transport := .udp info } }
  if status = .ok then
    let out := { out with layers := { out.layers with transportProto := .udp } }
    let appOffset ← sizeAdd offset 8
    let out ← nsPacketSetPayload out data length appOffset
    nsPacketParseDnsIfApplicable out data length appOffset info.sourcePort info.destinationPort
  else if status = .truncated then return nsPacketMarkMalformed out .udpTruncated
  else return nsPacketMarkMalformed out .udpInconsistent

def parseIcmpLayer (out : Packet) (data : Bytes) (length offset : ℕ) : Exec Packet := do
  let (status,info) ← nsParseIcmp (← advance data offset) (← sizeSub length offset) out.layers.transport.getIcmp
  let out := { out with layers := { out.layers with transport := .icmp info } }
  if status = .ok then return { out with layers := { out.layers with transportProto := .icmp } }
  return nsPacketMarkMalformed out .icmpTruncated

def parseIcmpv6Layer (out : Packet) (data : Bytes) (length offset : ℕ) : Exec Packet := do
  let (status,info) ← nsParseIcmpv6 (← advance data offset) (← sizeSub length offset) out.layers.transport.getIcmpv6
  let out := { out with layers := { out.layers with transport := .icmpv6 info } }
  if status = .ok then return { out with layers := { out.layers with transportProto := .icmpv6 } }
  return nsPacketMarkMalformed out .icmpv6Truncated

def nsPacketParseTransport (out : Packet) (data : Bytes) (length offset : ℕ) (proto : UInt8) : Exec Packet :=
  if proto = ipProtoTcp then parseTcpLayer out data length offset
  else if proto = ipProtoUdp then parseUdpLayer out data length offset
  else if proto = ipProtoIcmp then parseIcmpLayer out data length offset
  else if proto = ipProtoIcmpv6 then parseIcmpv6Layer out data length offset
  else return out

def nsPacketParseIpv4 (out : Packet) (data : Bytes) (length offset : ℕ) : Exec Packet := do
  let (status,info,headerLen) ← nsParseIpv4 (← advance data offset) (← sizeSub length offset) out.layers.net.getIpv4
  let out := { out with layers := { out.layers with net := .ipv4 info } }
  if status = .truncated then return nsPacketMarkMalformed out .ipv4Truncated
  if status ≠ .ok then return nsPacketMarkMalformed out .ipv4Inconsistent
  let out := { out with layers := { out.layers with networkProto := .ipv4 } }
  let transportOffset ← sizeAdd offset (← use headerLen)
  let out ← nsPacketSetPayload out data length transportOffset
  if info.isFragment && !info.isInitialFragment then return out
  nsPacketParseTransport out data length transportOffset info.protocol

def nsPacketParseIpv6 (out : Packet) (data : Bytes) (length offset : ℕ) : Exec Packet := do
  let (status,info,headerLen) ← nsParseIpv6 (← advance data offset) (← sizeSub length offset) out.layers.net.getIpv6
  let out := { out with layers := { out.layers with net := .ipv6 info } }
  if status = .truncated then return nsPacketMarkMalformed out .ipv6Truncated
  if status ≠ .ok then return nsPacketMarkMalformed out .ipv6Inconsistent
  let out := { out with layers := { out.layers with networkProto := .ipv6 } }
  let extOffset ← sizeAdd offset (← use headerLen)
  let (ok,extOffset,nextHeader) ← nsIpv6SkipExtensionHeaders data length extOffset info.nextHeader
  if !ok then return ← nsPacketSetPayload (nsPacketMarkMalformed out .ipv6ChainInvalid) data length extOffset
  let out ← nsPacketSetPayload out data length extOffset
  nsPacketParseTransport out data length extOffset nextHeader

def nsPacketParseArp (out : Packet) (data : Bytes) (length offset : ℕ) : Exec Packet := do
  let (status,info) ← nsParseArp (← advance data offset) (← sizeSub length offset) out.layers.net.getArp
  let out := { out with layers := { out.layers with net := .arp info } }
  let out :=
    if status = .ok then { out with layers := { out.layers with networkProto := .arp } }
    else if status = .truncated then nsPacketMarkMalformed out .arpTruncated
    else out
  nsPacketSetPayload out data length offset

def nsPacketParseNetwork (out : Packet) (data : Bytes) (length offset : ℕ) (ethertype : UInt16) : Exec Packet :=
  if ethertype = ethertypeIpv4 then nsPacketParseIpv4 out data length offset
  else if ethertype = ethertypeIpv6 then nsPacketParseIpv6 out data length offset
  else if ethertype = ethertypeArp then nsPacketParseArp out data length offset
  else return out

def nsPacketParse (data : Bytes) (capturedLength originalLength : ℕ) (timestamp : Timestamp) (number : UInt64)
    (linkType : LinkType) : Exec Packet := do
  let out : Packet :=
    { layers := { initialPacket data originalLength timestamp number linkType with
        capturedLength := capturedLength, payloadLength := capturedLength }
      dns := Info.zero }
  if linkType ≠ .ethernet then return out
  let (status,eth,offset) ← nsParseEthernet data capturedLength out.layers.eth
  let out := { out with layers := { out.layers with eth := eth } }
  if status ≠ .ok then return nsPacketMarkMalformed out .ethernetTruncated
  let out := { out with layers := { out.layers with hasEth := true } }
  let offset ← use offset
  let out ← nsPacketSetPayload out data capturedLength offset
  nsPacketParseNetwork out data capturedLength offset eth.ethertype

/-! ## Agreement with the functional model -/

/-- The checked packet stands for `pkt`. A union member or the DNS structure is compared
only when its tag selects it: a parser that fails may have written a part of it. -/
structure Represents (pkt : Netscope.Packet) (out : Packet) : Prop where
  rest : pkt = { out.layers with eth := pkt.eth, net := pkt.net, transport := pkt.transport, dns := pkt.dns }
  eth : pkt.hasEth = true → out.layers.eth = pkt.eth
  net : pkt.networkProto ≠ .unknown → out.layers.net = pkt.net
  transport : pkt.transportProto ≠ .unknown → out.layers.transport = pkt.transport
  dns : pkt.hasDns = true → InfoHolds pkt.dns out.dns

section Writes
variable {data : Bytes} {pkt : Netscope.Packet} {out : Packet} (hrep : Represents pkt out)
include hrep

theorem nsPacketMarkMalformed_represents (reason : MalformedReason) :
    Represents (Netscope.nsPacketMarkMalformed pkt reason) (nsPacketMarkMalformed out reason) where
  rest := by
    conv_lhs => rw [hrep.rest]
    rfl
  eth := hrep.eth
  net := hrep.net
  transport := hrep.transport
  dns := hrep.dns

theorem nsPacketSetPayload_represents (offset : ℕ) :
    ∃ out', nsPacketSetPayload out data data.length offset = .ok out' ∧
      Represents (Netscope.nsPacketSetPayload pkt data.length offset) out' := by
  unfold nsPacketSetPayload Netscope.nsPacketSetPayload
  by_cases h : offset > data.length
  · simp only [h, ↓reduceIte]
    refine ⟨_,rfl,?_,hrep.eth,hrep.net,hrep.transport,hrep.dns⟩
    conv_lhs => rw [hrep.rest]
  · simp only [h, ↓reduceIte, advance_ok (Nat.not_lt.mp h), sizeSub_ok (Nat.not_lt.mp h), ok_bind]
    refine ⟨_,rfl,?_,hrep.eth,hrep.net,hrep.transport,hrep.dns⟩
    conv_lhs => rw [hrep.rest]

/-- Writing the transport union while no tag selects it. -/
theorem writeTransport_represents (hno : pkt.transportProto = .unknown) (transport : TransportUnion) :
    Represents pkt { out with layers := { out.layers with transport := transport } } :=
  ⟨hrep.rest,hrep.eth,hrep.net,fun h => absurd hno h,hrep.dns⟩

/-- Writing the network union while no tag selects it. -/
theorem writeNet_represents (hno : pkt.networkProto = .unknown) (net : NetUnion) :
    Represents pkt { out with layers := { out.layers with net := net } } :=
  ⟨hrep.rest,hrep.eth,fun h => absurd hno h,hrep.transport,hrep.dns⟩

/-- Setting the transport tag after its member has been written. -/
theorem setTransport_represents (proto : Proto) (transport : TransportUnion) :
    Represents { pkt with transport := transport, transportProto := proto }
      { out with layers := { out.layers with transport := transport, transportProto := proto } } where
  rest := by conv_lhs => rw [hrep.rest]
  eth := hrep.eth
  net := hrep.net
  transport := fun _ => rfl
  dns := hrep.dns

/-- Setting the network tag after its member has been written. -/
theorem setNet_represents (proto : Proto) (net : NetUnion) :
    Represents { pkt with net := net, networkProto := proto }
      { out with layers := { out.layers with net := net, networkProto := proto } } where
  rest := by conv_lhs => rw [hrep.rest]
  eth := hrep.eth
  net := fun _ => rfl
  transport := hrep.transport
  dns := hrep.dns

end Writes

theorem nsPacketParseDnsIfApplicable_represents {data : Bytes} (hl : data.length < 2 ^ 64) {pkt : Netscope.Packet}
    {out : Packet} (hrep : Represents pkt out) (hno : pkt.hasDns = false) (offset : ℕ) (srcPort dstPort : UInt16) :
    ∃ out', nsPacketParseDnsIfApplicable out data data.length offset srcPort dstPort = .ok out' ∧
      Represents (Netscope.nsPacketParseDnsIfApplicable pkt data offset srcPort dstPort) out' := by
  unfold nsPacketParseDnsIfApplicable Netscope.nsPacketParseDnsIfApplicable
  by_cases hport : srcPort ≠ 53 ∧ dstPort ≠ 53
  · rw [if_pos hport, if_pos hport]
    exact ⟨out,rfl,hrep⟩
  · rw [if_neg hport, if_neg hport]
    by_cases h : offset > data.length
    · simp only [h, ↓reduceIte]
      exact ⟨out,rfl,hrep⟩
    · have hd : (data.drop offset).length = data.length - offset := List.length_drop
      obtain ⟨⟨status,dns⟩,he,ha⟩ := @nsParseDns_agrees (data.drop offset) (by omega) out.dns
      rw [hd] at he
      simp only [h, ↓reduceIte, advance_ok (Nat.not_lt.mp h), sizeSub_ok (Nat.not_lt.mp h), ok_bind, he]
      cases hm : Netscope.nsParseDns (data.drop offset) with
      | error e =>
        rw [hm] at ha
        have hne : status ≠ .ok := ne_ok_of_statusOf ha
        simp only [hne, ↓reduceIte]
        exact ⟨_,rfl,hrep.rest,hrep.eth,hrep.net,hrep.transport,fun h => absurd h (by simp [hno])⟩
      | ok info =>
        rw [hm] at ha
        obtain ⟨rfl,hinfo⟩ := ha
        simp only [↓reduceIte]
        refine ⟨_,rfl,?_,hrep.eth,hrep.net,hrep.transport,fun _ => hinfo⟩
        conv_lhs => rw [hrep.rest]

/-- A header that fits the remaining bytes ends below `2^64`. -/
theorem offset_lt {data : Bytes} (hl : data.length < 2 ^ 64) {offset headerLen : ℕ} (hoff : offset ≤ data.length)
    (h : headerLen ≤ data.length - offset) : offset + headerLen < 2 ^ 64 := by omega

section Walk
variable {data : Bytes} (hl : data.length < 2 ^ 64) {pkt : Netscope.Packet} {out : Packet} (hrep : Represents pkt out)
  (hnoTransport : pkt.transportProto = .unknown) (hnoDns : pkt.hasDns = false) {offset : ℕ} (hoff : offset ≤ data.length)
include hl hrep hnoTransport hnoDns hoff

theorem parseTcpLayer_represents :
    ∃ out', parseTcpLayer out data data.length offset = .ok out' ∧
      Represents (Netscope.nsPacketParseTransport pkt data offset ipProtoTcp) out' := by
  have hd : (data.drop offset).length = data.length - offset := List.length_drop
  have he := @nsParseTcp_eq (data.drop offset) (by omega) out.layers.transport.getTcp
  rw [hd] at he
  unfold parseTcpLayer Netscope.nsPacketParseTransport
  simp only [advance_ok hoff, sizeSub_ok hoff, ok_bind, he, ↓reduceIte]
  cases hm : Netscope.nsParseTcp (data.drop offset) with
  | error e =>
    have hw := writeTransport_represents hrep hnoTransport (.tcp out.layers.transport.getTcp)
    cases e with
    | truncated => exact ⟨_,rfl,nsPacketMarkMalformed_represents hw .tcpTruncated⟩
    | malformed => exact ⟨_,rfl,nsPacketMarkMalformed_represents hw .tcpInconsistent⟩
    | unsupported => exact ⟨_,rfl,nsPacketMarkMalformed_represents hw .tcpInconsistent⟩
  | ok m =>
    obtain ⟨info,headerLen⟩ := m
    have hhdr := nsParseTcp_headerLen_le hm
    rw [hd] at hhdr
    simp only [outcome, ↓reduceIte, use_some, ok_bind, sizeAdd_ok (offset_lt hl hoff hhdr)]
    obtain ⟨out1,he1,hrep1⟩ := @nsPacketSetPayload_represents data _ _ (setTransport_represents hrep .tcp (.tcp info))
      (offset + headerLen)
    rw [he1, ok_bind]
    exact nsPacketParseDnsIfApplicable_represents hl hrep1 (by rw [nsPacketSetPayload_eq]; exact hnoDns) _ _ _

theorem parseUdpLayer_represents :
    ∃ out', parseUdpLayer out data data.length offset = .ok out' ∧
      Represents (Netscope.nsPacketParseTransport pkt data offset ipProtoUdp) out' := by
  have hd : (data.drop offset).length = data.length - offset := List.length_drop
  have he := @nsParseUdp_eq (data.drop offset) (by omega) out.layers.transport.getUdp
  rw [hd] at he
  unfold parseUdpLayer Netscope.nsPacketParseTransport
  simp only [advance_ok hoff, sizeSub_ok hoff, ok_bind, he, ↓reduceIte]
  cases hm : Netscope.nsParseUdp (data.drop offset) with
  | error e =>
    have hw := writeTransport_represents hrep hnoTransport (.udp out.layers.transport.getUdp)
    cases e with
    | truncated => exact ⟨_,rfl,nsPacketMarkMalformed_represents hw .udpTruncated⟩
    | malformed => exact ⟨_,rfl,nsPacketMarkMalformed_represents hw .udpInconsistent⟩
    | unsupported => exact ⟨_,rfl,nsPacketMarkMalformed_represents hw .udpInconsistent⟩
  | ok info =>
    have hhdr := (nsParseUdp_eq_ok_iff.mp hm).1
    rw [hd] at hhdr
    simp only [outcome', ↓reduceIte, ok_bind, sizeAdd_ok (show offset + 8 < 2 ^ 64 by omega)]
    obtain ⟨out1,he1,hrep1⟩ := @nsPacketSetPayload_represents data _ _ (setTransport_represents hrep .udp (.udp info)) (offset + 8)
    rw [he1, ok_bind]
    exact nsPacketParseDnsIfApplicable_represents hl hrep1 (by rw [nsPacketSetPayload_eq]; exact hnoDns) _ _ _

omit hnoDns in
theorem parseIcmpLayer_represents :
    ∃ out', parseIcmpLayer out data data.length offset = .ok out' ∧
      Represents (Netscope.nsPacketParseTransport pkt data offset ipProtoIcmp) out' := by
  have hd : (data.drop offset).length = data.length - offset := List.length_drop
  obtain ⟨info',he⟩ := @parseEcho_eq (data.drop offset) (by omega) icmpIsEcho out.layers.transport.getIcmp
  rw [hd] at he
  unfold parseIcmpLayer Netscope.nsPacketParseTransport nsParseIcmp Netscope.nsParseIcmp
  simp only [advance_ok hoff, sizeSub_ok hoff, ok_bind, he]
  cases hm : Netscope.parseEcho icmpIsEcho (data.drop offset) with
  | error e =>
    have hw := writeTransport_represents hrep hnoTransport (.icmp info')
    have hne := statusOf_ne_ok e
    simp only [outcome', hne, ↓reduceIte]
    exact ⟨_,rfl,nsPacketMarkMalformed_represents hw .icmpTruncated⟩
  | ok info => exact ⟨_,rfl,setTransport_represents hrep .icmp (.icmp info)⟩

omit hnoDns in
theorem parseIcmpv6Layer_represents :
    ∃ out', parseIcmpv6Layer out data data.length offset = .ok out' ∧
      Represents (Netscope.nsPacketParseTransport pkt data offset ipProtoIcmpv6) out' := by
  have hd : (data.drop offset).length = data.length - offset := List.length_drop
  obtain ⟨info',he⟩ := @parseEcho_eq (data.drop offset) (by omega) icmpv6IsEcho out.layers.transport.getIcmpv6
  rw [hd] at he
  unfold parseIcmpv6Layer Netscope.nsPacketParseTransport nsParseIcmpv6 Netscope.nsParseIcmpv6
  simp only [advance_ok hoff, sizeSub_ok hoff, ok_bind, he]
  cases hm : Netscope.parseEcho icmpv6IsEcho (data.drop offset) with
  | error e =>
    have hw := writeTransport_represents hrep hnoTransport (.icmpv6 info')
    have hne := statusOf_ne_ok e
    simp only [outcome', hne, ↓reduceIte]
    exact ⟨_,rfl,nsPacketMarkMalformed_represents hw .icmpv6Truncated⟩
  | ok info => exact ⟨_,rfl,setTransport_represents hrep .icmpv6 (.icmpv6 info)⟩

theorem nsPacketParseTransport_represents (proto : UInt8) :
    ∃ out', nsPacketParseTransport out data data.length offset proto = .ok out' ∧
      Represents (Netscope.nsPacketParseTransport pkt data offset proto) out' := by
  unfold nsPacketParseTransport
  by_cases htcp : proto = ipProtoTcp
  · subst htcp
    exact parseTcpLayer_represents hl hrep hnoTransport hnoDns hoff
  · by_cases hudp : proto = ipProtoUdp
    · subst hudp
      exact parseUdpLayer_represents hl hrep hnoTransport hnoDns hoff
    · by_cases hicmp : proto = ipProtoIcmp
      · subst hicmp
        exact parseIcmpLayer_represents hl hrep hnoTransport hoff
      · by_cases hicmpv6 : proto = ipProtoIcmpv6
        · subst hicmpv6
          exact parseIcmpv6Layer_represents hl hrep hnoTransport hoff
        · refine ⟨out,?_,?_⟩
          · simp only [htcp, hudp, hicmp, hicmpv6, ↓reduceIte, pure_eq_ok]
          · rw [Netscope.nsPacketParseTransport, if_neg htcp, if_neg hudp, if_neg hicmp, if_neg hicmpv6]
            exact hrep

variable (hnoNet : pkt.networkProto = .unknown)
include hnoNet

theorem nsPacketParseIpv4_represents :
    ∃ out', nsPacketParseIpv4 out data data.length offset = .ok out' ∧
      Represents (Netscope.nsPacketParseIpv4 pkt data offset) out' := by
  have hd : (data.drop offset).length = data.length - offset := List.length_drop
  have he := @nsParseIpv4_eq (data.drop offset) (by omega) out.layers.net.getIpv4
  rw [hd] at he
  unfold nsPacketParseIpv4 Netscope.nsPacketParseIpv4
  simp only [advance_ok hoff, sizeSub_ok hoff, ok_bind, he]
  cases hm : Netscope.nsParseIpv4 (data.drop offset) with
  | error e =>
    have hw := writeNet_represents hrep hnoNet (.ipv4 out.layers.net.getIpv4)
    cases e with
    | truncated => exact ⟨_,rfl,nsPacketMarkMalformed_represents hw .ipv4Truncated⟩
    | malformed => exact ⟨_,rfl,nsPacketMarkMalformed_represents hw .ipv4Inconsistent⟩
    | unsupported => exact ⟨_,rfl,nsPacketMarkMalformed_represents hw .ipv4Inconsistent⟩
  | ok m =>
    obtain ⟨info,headerLen⟩ := m
    have hhdr := nsParseIpv4_headerLen_le hm
    rw [hd] at hhdr
    obtain ⟨out1,he1,hrep1⟩ := @nsPacketSetPayload_represents data _ _ (setNet_represents hrep .ipv4 (.ipv4 info))
      (offset + headerLen)
    simp only [outcome, reduceCtorEq, ↓reduceIte, ne_eq, not_true_eq_false, use_some, ok_bind,
      sizeAdd_ok (offset_lt hl hoff hhdr), he1]
    by_cases hfrag : (info.isFragment && !info.isInitialFragment) = true
    · simp only [hfrag, ↓reduceIte]
      exact ⟨out1,rfl,hrep1⟩
    · simp only [hfrag, Bool.false_eq_true, ↓reduceIte]
      exact nsPacketParseTransport_represents hl hrep1 (by rw [nsPacketSetPayload_eq]; exact hnoTransport)
        (by rw [nsPacketSetPayload_eq]; exact hnoDns) (by omega) info.protocol

theorem nsPacketParseIpv6_represents :
    ∃ out', nsPacketParseIpv6 out data data.length offset = .ok out' ∧
      Represents (Netscope.nsPacketParseIpv6 pkt data offset) out' := by
  have hd : (data.drop offset).length = data.length - offset := List.length_drop
  have he := @nsParseIpv6_eq (data.drop offset) (by omega) out.layers.net.getIpv6
  rw [hd] at he
  unfold nsPacketParseIpv6 Netscope.nsPacketParseIpv6
  simp only [advance_ok hoff, sizeSub_ok hoff, ok_bind, he]
  cases hm : Netscope.nsParseIpv6 (data.drop offset) with
  | error e =>
    have hw := writeNet_represents hrep hnoNet (.ipv6 out.layers.net.getIpv6)
    cases e with
    | truncated => exact ⟨_,rfl,nsPacketMarkMalformed_represents hw .ipv6Truncated⟩
    | malformed => exact ⟨_,rfl,nsPacketMarkMalformed_represents hw .ipv6Inconsistent⟩
    | unsupported => exact ⟨_,rfl,nsPacketMarkMalformed_represents hw .ipv6Inconsistent⟩
  | ok m =>
    obtain ⟨info,headerLen⟩ := m
    have hhdr := nsParseIpv6_headerLen_le hm
    rw [hd] at hhdr
    have hskip := skipExtensionHeaders_eq hl ipv6MaxExtensionHeaders (offset + headerLen) info.nextHeader
    have hext := @skipExtensionHeaders_offset_le data ipv6MaxExtensionHeaders (offset + headerLen) info.nextHeader
      (by omega)
    simp only [outcome, reduceCtorEq, ↓reduceIte, ne_eq, not_true_eq_false, use_some, ok_bind,
      sizeAdd_ok (offset_lt hl hoff hhdr), nsIpv6SkipExtensionHeaders, Netscope.nsIpv6SkipExtensionHeaders, hskip]
    have hnet := setNet_represents hrep .ipv6 (.ipv6 info)
    rcases hs : Netscope.skipExtensionHeaders data ipv6MaxExtensionHeaders (offset + headerLen) info.nextHeader with
      ⟨accepted,extOffset,nextHeader⟩
    rw [hs] at hext
    cases accepted with
    | false =>
      obtain ⟨out1,he1,hrep1⟩ := @nsPacketSetPayload_represents data _ _
        (nsPacketMarkMalformed_represents hnet .ipv6ChainInvalid) extOffset
      simp only [Bool.not_false, ↓reduceIte, he1]
      exact ⟨out1,rfl,hrep1⟩
    | true =>
      obtain ⟨out1,he1,hrep1⟩ := @nsPacketSetPayload_represents data _ _ hnet extOffset
      simp only [Bool.not_true, Bool.false_eq_true, ↓reduceIte, he1, ok_bind]
      exact nsPacketParseTransport_represents hl hrep1 (by rw [nsPacketSetPayload_eq]; exact hnoTransport)
        (by rw [nsPacketSetPayload_eq]; exact hnoDns) hext nextHeader

omit hnoTransport hnoDns in
theorem nsPacketParseArp_represents :
    ∃ out', nsPacketParseArp out data data.length offset = .ok out' ∧
      Represents (Netscope.nsPacketParseArp pkt data offset) out' := by
  have hd : (data.drop offset).length = data.length - offset := List.length_drop
  have he := @nsParseArp_eq (data.drop offset) (by omega) out.layers.net.getArp
  rw [hd] at he
  unfold nsPacketParseArp Netscope.nsPacketParseArp
  simp only [advance_ok hoff, sizeSub_ok hoff, ok_bind, he]
  cases hm : Netscope.nsParseArp (data.drop offset) with
  | error e =>
    have hw := writeNet_represents hrep hnoNet (.arp out.layers.net.getArp)
    cases e with
    | truncated => exact nsPacketSetPayload_represents (nsPacketMarkMalformed_represents hw .arpTruncated) offset
    | malformed => exact nsPacketSetPayload_represents hw offset
    | unsupported => exact nsPacketSetPayload_represents hw offset
  | ok info => exact nsPacketSetPayload_represents (setNet_represents hrep .arp (.arp info)) offset

theorem nsPacketParseNetwork_represents (ethertype : UInt16) :
    ∃ out', nsPacketParseNetwork out data data.length offset ethertype = .ok out' ∧
      Represents (Netscope.nsPacketParseNetwork pkt data offset ethertype) out' := by
  unfold nsPacketParseNetwork Netscope.nsPacketParseNetwork
  split
  · exact nsPacketParseIpv4_represents hl hrep hnoTransport hnoDns hoff hnoNet
  · split
    · exact nsPacketParseIpv6_represents hl hrep hnoTransport hnoDns hoff hnoNet
    · split
      · exact nsPacketParseArp_represents hl hrep hoff hnoNet
      · exact ⟨out,rfl,hrep⟩

end Walk

/-- The packet of the walk is the one of the functional model. -/
theorem nsPacketParse_represents {data : Bytes} (hl : data.length < 2 ^ 64) (originalLength : ℕ) (timestamp : Timestamp)
    (number : UInt64) (linkType : LinkType) :
    ∃ out, nsPacketParse data data.length originalLength timestamp number linkType = .ok out ∧
      Represents (Netscope.nsPacketParse data originalLength timestamp number linkType) out := by
  have hinit : Represents (initialPacket data originalLength timestamp number linkType)
      ⟨initialPacket data originalLength timestamp number linkType,Info.zero⟩ :=
    ⟨rfl,fun _ => rfl,fun _ => rfl,fun _ => rfl,fun h => absurd h Bool.false_ne_true⟩
  unfold nsPacketParse Netscope.nsPacketParse
  by_cases hlink : linkType ≠ .ethernet
  · rw [if_pos hlink, if_pos hlink]
    exact ⟨_,rfl,hinit⟩
  · obtain ⟨eth',he⟩ := nsParseEthernet_eq hl EthInfo.zero
    rw [if_neg hlink, if_neg hlink]
    simp only [initialPacket, he, ok_bind]
    cases hm : Netscope.nsParseEthernet data with
    | error e =>
      have hne := statusOf_ne_ok e
      simp only [outcome, ne_eq, hne, not_false_eq_true, ↓reduceIte]
      exact ⟨_,rfl,rfl,(fun h => absurd h Bool.false_ne_true),fun _ => rfl,fun _ => rfl,
        (fun h => absurd h Bool.false_ne_true)⟩
    | ok m =>
      obtain ⟨eth,offset⟩ := m
      simp only [outcome, ne_eq, not_true_eq_false, ↓reduceIte, use_some, ok_bind]
      have heth : Represents
          { initialPacket data originalLength timestamp number linkType with eth := eth, hasEth := true }
          ⟨{ initialPacket data originalLength timestamp number linkType with eth := eth, hasEth := true },Info.zero⟩ :=
        ⟨rfl,fun _ => rfl,fun _ => rfl,fun _ => rfl,fun h => absurd h Bool.false_ne_true⟩
      obtain ⟨out1,he1,hrep1⟩ := @nsPacketSetPayload_represents data _ _ heth offset
      simp only [initialPacket] at he1
      rw [he1, ok_bind]
      exact nsPacketParseNetwork_represents hl hrep1 (by rw [nsPacketSetPayload_eq]; rfl)
        (by rw [nsPacketSetPayload_eq]; rfl) (nsParseEthernet_headerLen_le hm) (by rw [nsPacketSetPayload_eq]; rfl)
        eth.ethertype

/-- On every frame the walk performs no undefined access, and its packet is the one of
the functional model. -/
theorem nsPacketParse_no_fault (data : Buffer) (originalLength : ℕ) (timestamp : Timestamp) (number : UInt64)
    (linkType : LinkType) :
    ∃ out, nsPacketParse data.bytes data.bytes.length originalLength timestamp number linkType = .ok out ∧
      Represents (Netscope.nsPacketParse data.bytes originalLength timestamp number linkType) out :=
  nsPacketParse_represents data.fits originalLength timestamp number linkType

end Netscope.Checked
