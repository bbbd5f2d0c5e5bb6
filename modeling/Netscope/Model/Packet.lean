import Netscope.Model.Dns

/-! # The packet model and the layer walk

`ns_packet_parse` with its layer helpers. The unions of `ns_packet_t` are sums
whose extra case is the zeroed union of a fresh packet; the accessors are the
member reads of the source. A payload is the offset of its pointer into the
captured bytes, nothing for `NULL`.
-/
namespace Netscope
open ByteString

structure Timestamp where
  seconds : Int64
  microseconds : Int32
deriving DecidableEq, Repr

inductive LinkType where
  | unknown
  | ethernet
deriving DecidableEq, Repr

inductive Proto where
  | unknown
  | arp
  | ipv4
  | ipv6
  | tcp
  | udp
  | icmp
  | icmpv6
  | dns
deriving DecidableEq, Repr

def nsProtoName : Proto → String
  | .arp => "ARP"
  | .ipv4 => "IPv4"
  | .ipv6 => "IPv6"
  | .tcp => "TCP"
  | .udp => "UDP"
  | .icmp => "ICMP"
  | .icmpv6 => "ICMPv6"
  | .dns => "DNS"
  | .unknown => "Unknown"

/-- The reasons passed to `ns_packet_mark_malformed`. -/
inductive MalformedReason where
  | ethernetTruncated
  | ipv4Truncated
  | ipv4Inconsistent
  | ipv6Truncated
  | ipv6Inconsistent
  | ipv6ChainInvalid
  | arpTruncated
  | tcpTruncated
  | tcpInconsistent
  | udpTruncated
  | udpInconsistent
  | icmpTruncated
  | icmpv6Truncated
deriving DecidableEq, Repr

def MalformedReason.text : MalformedReason → String
  | .ethernetTruncated => "Ethernet header truncated"
  | .ipv4Truncated => "IPv4 header truncated"
  | .ipv4Inconsistent => "IPv4 header inconsistent"
  | .ipv6Truncated => "IPv6 header truncated"
  | .ipv6Inconsistent => "IPv6 header inconsistent"
  | .ipv6ChainInvalid => "IPv6 extension header chain invalid"
  | .arpTruncated => "ARP packet truncated"
  | .tcpTruncated => "TCP header truncated"
  | .tcpInconsistent => "TCP header inconsistent"
  | .udpTruncated => "UDP header truncated"
  | .udpInconsistent => "UDP header inconsistent"
  | .icmpTruncated => "ICMP header truncated"
  | .icmpv6Truncated => "ICMPv6 header truncated"

def EthInfo.zero : EthInfo := ⟨.replicate 6 0, .replicate 6 0, 0, false, 0⟩
def ArpInfo.zero : ArpInfo := ⟨0, .replicate 6 0, .replicate 4 0, .replicate 6 0, .replicate 4 0⟩
def Ipv4Info.zero : Ipv4Info :=
  ⟨0, 0, 0, 0, 0, 0, false, false, 0, 0, 0, 0, .replicate 4 0, .replicate 4 0, 0, false, false⟩
def Ipv6Info.zero : Ipv6Info := ⟨0, 0, 0, 0, 0, 0, .replicate 16 0, .replicate 16 0, 0⟩
def TcpInfo.zero : TcpInfo := ⟨0, 0, 0, 0, 0, 0, 0, 0, 0, 0⟩
def UdpInfo.zero : UdpInfo := ⟨0, 0, 0, 0⟩
def IcmpInfo.zero : IcmpInfo := ⟨0, 0, 0, 0, 0⟩
def DnsInfo.zero : DnsInfo := ⟨0, 0, false, 0, 0, 0, 0, [], []⟩

inductive NetUnion where
  | zero
  | arp (info : ArpInfo)
  | ipv4 (info : Ipv4Info)
  | ipv6 (info : Ipv6Info)
deriving DecidableEq, Repr

inductive TransportUnion where
  | zero
  | tcp (info : TcpInfo)
  | udp (info : UdpInfo)
  | icmp (info : IcmpInfo)
  | icmpv6 (info : IcmpInfo)
deriving DecidableEq, Repr

def NetUnion.getArp : NetUnion → ArpInfo
  | .arp info => info
  | _ => .zero
def NetUnion.getIpv4 : NetUnion → Ipv4Info
  | .ipv4 info => info
  | _ => .zero
def NetUnion.getIpv6 : NetUnion → Ipv6Info
  | .ipv6 info => info
  | _ => .zero
def TransportUnion.getTcp : TransportUnion → TcpInfo
  | .tcp info => info
  | _ => .zero
def TransportUnion.getUdp : TransportUnion → UdpInfo
  | .udp info => info
  | _ => .zero
def TransportUnion.getIcmp : TransportUnion → IcmpInfo
  | .icmp info => info
  | _ => .zero
def TransportUnion.getIcmpv6 : TransportUnion → IcmpInfo
  | .icmpv6 info => info
  | _ => .zero

structure Packet where
  number : UInt64
  timestamp : Timestamp
  capturedLength : ℕ
  originalLength : ℕ
  rawData : Bytes
  linkType : LinkType
  hasEth : Bool
  eth : EthInfo
  networkProto : Proto
  net : NetUnion
  transportProto : Proto
  transport : TransportUnion
  hasDns : Bool
  dns : DnsInfo
  payload : Option ℕ
  payloadLength : ℕ
  malformed : Bool
  malformedReason : Option MalformedReason
deriving DecidableEq, Repr

/-- The bytes of the payload view. -/
def Packet.payloadBytes (pkt : Packet) : Bytes :=
  match pkt.payload with
  | some k => chunk pkt.rawData k pkt.payloadLength
  | none => []

def nsPacketMarkMalformed (out : Packet) (reason : MalformedReason) : Packet :=
  { out with malformed := true, malformedReason := some reason }

def nsPacketSetPayload (out : Packet) (length offset : ℕ) : Packet :=
  if offset > length then { out with payload := none, payloadLength := 0 }
  else { out with payload := some offset, payloadLength := length - offset }

/-- Only the payload view changes. -/
theorem nsPacketSetPayload_eq (out : Packet) (length offset : ℕ) :
    nsPacketSetPayload out length offset =
      { out with payload := if offset > length then none else some offset
                 payloadLength := if offset > length then 0 else length - offset } := by
  unfold nsPacketSetPayload
  by_cases h : offset > length
  · simp only [h, ↓reduceIte]
  · simp only [h, ↓reduceIte]

def nsPacketParseDnsIfApplicable (out : Packet) (data : Bytes) (offset : ℕ) (srcPort dstPort : UInt16) : Packet :=
  if srcPort ≠ 53 ∧ dstPort ≠ 53 then out
  else if offset > data.length then out
  else
    match nsParseDns (data.drop offset) with
    | .ok info => { out with dns := info, hasDns := true }
    | .error _ => out

abbrev ipProtoIcmp : UInt8 := 1
abbrev ipProtoTcp : UInt8 := 6
abbrev ipProtoUdp : UInt8 := 17
abbrev ipProtoIcmpv6 : UInt8 := 58

def nsPacketParseTransport (out : Packet) (data : Bytes) (offset : ℕ) (proto : UInt8) : Packet :=
  if proto = ipProtoTcp then
    match nsParseTcp (data.drop offset) with
    | .ok (info,headerLen) =>
      nsPacketParseDnsIfApplicable
        (nsPacketSetPayload { out with transport := .tcp info, transportProto := .tcp } data.length (offset + headerLen))
        data (offset + headerLen) info.sourcePort info.destinationPort
    | .error .truncated => nsPacketMarkMalformed out .tcpTruncated
    | .error _ => nsPacketMarkMalformed out .tcpInconsistent
  else if proto = ipProtoUdp then
    match nsParseUdp (data.drop offset) with
    | .ok info =>
      nsPacketParseDnsIfApplicable
        (nsPacketSetPayload { out with transport := .udp info, transportProto := .udp } data.length (offset + 8))
        data (offset + 8) info.sourcePort info.destinationPort
    | .error .truncated => nsPacketMarkMalformed out .udpTruncated
    | .error _ => nsPacketMarkMalformed out .udpInconsistent
  else if proto = ipProtoIcmp then
    match nsParseIcmp (data.drop offset) with
    | .ok info => { out with transport := .icmp info, transportProto := .icmp }
    | .error _ => nsPacketMarkMalformed out .icmpTruncated
  else if proto = ipProtoIcmpv6 then
    match nsParseIcmpv6 (data.drop offset) with
    | .ok info => { out with transport := .icmpv6 info, transportProto := .icmpv6 }
    | .error _ => nsPacketMarkMalformed out .icmpv6Truncated
  else out

def nsPacketParseIpv4 (out : Packet) (data : Bytes) (offset : ℕ) : Packet :=
  match nsParseIpv4 (data.drop offset) with
  | .error .truncated => nsPacketMarkMalformed out .ipv4Truncated
  | .error _ => nsPacketMarkMalformed out .ipv4Inconsistent
  | .ok (info,headerLen) =>
    let out := nsPacketSetPayload { out with net := .ipv4 info, networkProto := .ipv4 } data.length (offset + headerLen)
    if info.isFragment && !info.isInitialFragment then out
    else nsPacketParseTransport out data (offset + headerLen) info.protocol

def nsPacketParseIpv6 (out : Packet) (data : Bytes) (offset : ℕ) : Packet :=
  match nsParseIpv6 (data.drop offset) with
  | .error .truncated => nsPacketMarkMalformed out .ipv6Truncated
  | .error _ => nsPacketMarkMalformed out .ipv6Inconsistent
  | .ok (info,headerLen) =>
    let out := { out with net := .ipv6 info, networkProto := .ipv6 }
    match nsIpv6SkipExtensionHeaders data (offset + headerLen) info.nextHeader with
    | (false,extOffset,_) =>
      nsPacketSetPayload (nsPacketMarkMalformed out .ipv6ChainInvalid) data.length extOffset
    | (true,extOffset,nextHeader) =>
      nsPacketParseTransport (nsPacketSetPayload out data.length extOffset) data extOffset nextHeader

def nsPacketParseArp (out : Packet) (data : Bytes) (offset : ℕ) : Packet :=
  let out := match nsParseArp (data.drop offset) with
    | .ok info => { out with net := .arp info, networkProto := .arp }
    | .error .truncated => nsPacketMarkMalformed out .arpTruncated
    | .error _ => out
  nsPacketSetPayload out data.length offset

/-- The packet as it stands before any layer is decoded. -/
def initialPacket (data : Bytes) (originalLength : ℕ) (timestamp : Timestamp) (number : UInt64)
    (linkType : LinkType) : Packet where
  number := number
  timestamp := timestamp
  capturedLength := data.length
  originalLength := originalLength
  rawData := data
  linkType := linkType
  hasEth := false
  eth := .zero
  networkProto := .unknown
  net := .zero
  transportProto := .unknown
  transport := .zero
  hasDns := false
  dns := .zero
  payload := some 0
  payloadLength := data.length
  malformed := false
  malformedReason := none

/-- The switch over the ethertype. -/
def nsPacketParseNetwork (out : Packet) (data : Bytes) (offset : ℕ) (ethertype : UInt16) : Packet :=
  if ethertype = ethertypeIpv4 then nsPacketParseIpv4 out data offset
  else if ethertype = ethertypeIpv6 then nsPacketParseIpv6 out data offset
  else if ethertype = ethertypeArp then nsPacketParseArp out data offset
  else out

def nsPacketParse (data : Bytes) (originalLength : ℕ) (timestamp : Timestamp) (number : UInt64)
    (linkType : LinkType) : Packet :=
  let out := initialPacket data originalLength timestamp number linkType
  if linkType ≠ .ethernet then out
  else
    match nsParseEthernet data with
    | .error _ => nsPacketMarkMalformed out .ethernetTruncated
    | .ok (eth,offset) =>
      let out := nsPacketSetPayload { out with eth := eth, hasEth := true } data.length offset
      nsPacketParseNetwork out data offset eth.ethertype

/-- The arguments of one call of `ns_packet_parse`. -/
structure Capture where
  data : Bytes
  originalLength : ℕ
  timestamp : Timestamp
  number : UInt64
  linkType : LinkType

def Capture.packet (c : Capture) : Packet := nsPacketParse c.data c.originalLength c.timestamp c.number c.linkType

end Netscope
