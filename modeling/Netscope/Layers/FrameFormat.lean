import Netscope.Library.BitFields
import Netscope.Model.Packet

/-! # Frames on the wire

The headers as their standards lay them out: each is a structure whose fields
carry their own bounds, with its big-endian serialisation and the decoded structure
that its fields amount to. Nothing here follows the parsers.
-/
namespace Netscope.Wire
open ByteString BitFields

/-! ## Ethernet and ARP -/

/-- An 802.1Q tag: four bits of priority and drop eligibility above the identifier. -/
structure VlanTag where
  priority : UInt16
  id : UInt16
  priority_lt : priority.toNat < 2 ^ 4
  id_lt : id.toNat < 2 ^ 12

def VlanTag.encode (t : VlanTag) : Bytes := be16 ethertypeVlan ++ be16 (pack16 12 t.priority t.id)

structure LinkHeader where
  destination : MacAddress
  source : MacAddress
  tag : Option VlanTag

def LinkHeader.encode (h : LinkHeader) (ethertype : UInt16) : Bytes :=
  h.destination.toList ++ (h.source.toList ++ (h.tag.elim [] VlanTag.encode ++ be16 ethertype))

def LinkHeader.info (h : LinkHeader) (ethertype : UInt16) : EthInfo where
  destination := h.destination
  source := h.source
  ethertype := ethertype
  hasVlan := h.tag.isSome
  vlanId := h.tag.elim 0 VlanTag.id

/-- An ARP packet for Ethernet and IPv4. -/
def encodeArp (a : ArpInfo) : Bytes :=
  be16 1 ++ (be16 0x0800 ++ ([6] ++ ([4] ++ (be16 a.operation ++ (a.senderMac.toList ++ (a.senderIp.toList ++
    (a.targetMac.toList ++ a.targetIp.toList)))))))

/-! ## IPv4 -/

/-- An IPv4 header of an unfragmented packet or a first fragment. -/
structure Ipv4Header where
  ihl : UInt8
  dscp : UInt8
  ecn : UInt8
  totalLength : UInt16
  identification : UInt16
  reserved : Bool
  flagDf : Bool
  flagMf : Bool
  ttl : UInt8
  headerChecksum : UInt16
  source : Ipv4Address
  destination : Ipv4Address
  options : Bytes
  ihl_ge : 5 ≤ ihl.toNat
  ihl_lt : ihl.toNat < 2 ^ 4
  dscp_lt : dscp.toNat < 2 ^ 6
  ecn_lt : ecn.toNat < 2 ^ 2
  totalLength_ge : ihl.toNat * 4 ≤ totalLength.toNat
  options_length : options.length = (ihl.toNat - 5) * 4

/-- The word of the three flags above a fragment offset of zero. -/
def flagsWord (reserved flagDf flagMf : Bool) : UInt16 :=
  reserved.toUInt16 * 0x8000 + flagDf.toUInt16 * 0x4000 + flagMf.toUInt16 * 0x2000

def Ipv4Header.encode (h : Ipv4Header) (protocol : UInt8) : Bytes :=
  [pack8 4 4 h.ihl] ++ ([pack8 2 h.dscp h.ecn] ++ (be16 h.totalLength ++ (be16 h.identification ++
    (be16 (flagsWord h.reserved h.flagDf h.flagMf) ++ ([h.ttl] ++ ([protocol] ++ (be16 h.headerChecksum ++
      (h.source.toList ++ (h.destination.toList ++ h.options)))))))))

def Ipv4Header.info (h : Ipv4Header) (protocol : UInt8) : Ipv4Info where
  version := 4
  ihl := h.ihl
  dscp := h.dscp
  ecn := h.ecn
  totalLength := h.totalLength
  identification := h.identification
  flagDf := h.flagDf
  flagMf := h.flagMf
  fragmentOffset := 0
  ttl := h.ttl
  protocol := protocol
  headerChecksum := h.headerChecksum
  source := h.source
  destination := h.destination
  headerLength := h.ihl.toNat * 4
  isFragment := h.flagMf
  isInitialFragment := h.flagMf

/-! ## IPv6 and its extension headers -/

structure Ipv6Header where
  trafficClass : UInt8
  flowLabel : UInt32
  payloadLength : UInt16
  hopLimit : UInt8
  source : Ipv6Address
  destination : Ipv6Address
  flowLabel_lt : flowLabel.toNat < 2 ^ 20

/-- The first word: version 6, then the traffic class and the flow label. -/
def Ipv6Header.firstWord (h : Ipv6Header) : UInt32 :=
  UInt32.ofNat ((6 * 2 ^ 8 + h.trafficClass.toNat) * 2 ^ 20 + h.flowLabel.toNat)

def Ipv6Header.encode (h : Ipv6Header) (nextHeader : UInt8) : Bytes :=
  be32 h.firstWord ++ (be16 h.payloadLength ++ ([nextHeader] ++ ([h.hopLimit] ++ (h.source.toList ++
    h.destination.toList))))

def Ipv6Header.info (h : Ipv6Header) (nextHeader : UInt8) : Ipv6Info where
  version := 6
  trafficClass := h.trafficClass
  flowLabel := h.flowLabel
  payloadLength := h.payloadLength
  nextHeader := nextHeader
  hopLimit := h.hopLimit
  source := h.source
  destination := h.destination
  headerLength := 40

/-- The extension headers that count their length in units of eight bytes. -/
inductive OptionsKind where
  | hopByHop
  | routing
  | destinationOptions
deriving DecidableEq, Repr

def OptionsKind.number : OptionsKind → UInt8
  | .hopByHop => 0
  | .routing => 43
  | .destinationOptions => 60

inductive ExtensionHeader where
  | options (kind : OptionsKind) (units : UInt8) (body : Bytes) (h : 2 + body.length = (units.toNat + 1) * 8)
  /-- A fragment offset of zero leaves the two reserved bits and the M flag of its word. -/
  | fragment (reserved : UInt8) (flags : UInt16) (identification : UInt32) (h : flags.toNat < 2 ^ 3)

def ExtensionHeader.number : ExtensionHeader → UInt8
  | .options kind _ _ _ => kind.number
  | .fragment _ _ _ _ => 44

def ExtensionHeader.encode (nextHeader : UInt8) : ExtensionHeader → Bytes
  | .options _ units body _ => [nextHeader] ++ ([units] ++ body)
  | .fragment reserved flags identification _ => [nextHeader] ++ ([reserved] ++ (be16 flags ++ be32 identification))

/-- The next-header number that announces a chain in front of `upper`. -/
def chainNumber (upper : UInt8) : List ExtensionHeader → UInt8
  | [] => upper
  | e :: _ => e.number

def encodeChain (upper : UInt8) : List ExtensionHeader → Bytes
  | [] => []
  | e :: chain => e.encode (chainNumber upper chain) ++ encodeChain upper chain

/-! ## The upper layers -/

structure TcpHeader where
  sourcePort : UInt16
  destinationPort : UInt16
  sequenceNumber : UInt32
  ackNumber : UInt32
  dataOffset : UInt8
  reserved : UInt8
  flags : UInt8
  windowSize : UInt16
  checksum : UInt16
  urgentPointer : UInt16
  options : Bytes
  dataOffset_ge : 5 ≤ dataOffset.toNat
  dataOffset_lt : dataOffset.toNat < 2 ^ 4
  reserved_lt : reserved.toNat < 2 ^ 4
  options_length : options.length = (dataOffset.toNat - 5) * 4

def TcpHeader.encode (h : TcpHeader) : Bytes :=
  be16 h.sourcePort ++ (be16 h.destinationPort ++ (be32 h.sequenceNumber ++ (be32 h.ackNumber ++
    ([pack8 4 h.dataOffset h.reserved] ++ ([h.flags] ++ (be16 h.windowSize ++ (be16 h.checksum ++
      (be16 h.urgentPointer ++ h.options))))))))

def TcpHeader.info (h : TcpHeader) : TcpInfo where
  sourcePort := h.sourcePort
  destinationPort := h.destinationPort
  sequenceNumber := h.sequenceNumber
  ackNumber := h.ackNumber
  dataOffset := h.dataOffset
  flags := h.flags
  windowSize := h.windowSize
  checksum := h.checksum
  urgentPointer := h.urgentPointer
  headerLength := h.dataOffset.toNat * 4

structure UdpHeader extends UdpInfo where
  length_ge : 8 ≤ length

def UdpHeader.encode (h : UdpHeader) : Bytes :=
  be16 h.sourcePort ++ (be16 h.destinationPort ++ (be16 h.length ++ be16 h.checksum))

/-- An ICMP or ICMPv6 message; only echo messages have an identifier and a sequence number. -/
inductive EchoMessage (isEcho : UInt8 → Bool) where
  | echo (type code : UInt8) (checksum identifier sequence : UInt16) (h : isEcho type = true)
  | other (type code : UInt8) (checksum : UInt16) (h : isEcho type = false)

def EchoMessage.encode {isEcho : UInt8 → Bool} : EchoMessage isEcho → Bytes
  | .echo type code checksum identifier sequence _ =>
    [type] ++ ([code] ++ (be16 checksum ++ (be16 identifier ++ be16 sequence)))
  | .other type code checksum _ => [type] ++ ([code] ++ be16 checksum)

def EchoMessage.info {isEcho : UInt8 → Bool} : EchoMessage isEcho → IcmpInfo
  | .echo type code checksum identifier sequence _ => ⟨type,code,checksum,identifier,sequence⟩
  | .other type code checksum _ => ⟨type,code,checksum,0,0⟩

inductive UpperLayer where
  | tcp (h : TcpHeader)
  | udp (h : UdpHeader)
  | icmp (m : EchoMessage icmpIsEcho)
  | icmpv6 (m : EchoMessage icmpv6IsEcho)

namespace UpperLayer

def number : UpperLayer → UInt8
  | tcp _ => 6
  | udp _ => 17
  | icmp _ => 1
  | icmpv6 _ => 58

def proto : UpperLayer → Proto
  | tcp _ => .tcp
  | udp _ => .udp
  | icmp _ => .icmp
  | icmpv6 _ => .icmpv6

def encode : UpperLayer → Bytes
  | tcp h => h.encode
  | udp h => h.encode
  | icmp m => m.encode
  | icmpv6 m => m.encode

def union : UpperLayer → TransportUnion
  | tcp h => .tcp h.info
  | udp h => .udp h.toUdpInfo
  | icmp m => .icmp m.info
  | icmpv6 m => .icmpv6 m.info

/-- The source and destination ports of TCP and UDP. -/
def ports : UpperLayer → Option (UInt16 × UInt16)
  | tcp h => some (h.sourcePort,h.destinationPort)
  | udp h => some (h.sourcePort,h.destinationPort)
  | icmp _ => none
  | icmpv6 _ => none

end UpperLayer

/-! ## Frames -/

/-- A network layer that carries an upper layer. -/
inductive IpHeader where
  | ipv4 (h : Ipv4Header)
  | ipv6 (h : Ipv6Header) (chain : List ExtensionHeader) (short : chain.length ≤ 7)

namespace IpHeader

def ethertype : IpHeader → UInt16
  | ipv4 _ => 0x0800
  | ipv6 _ _ _ => 0x86DD

def encode (upper : UInt8) : IpHeader → Bytes
  | ipv4 h => h.encode upper
  | ipv6 h chain _ => h.encode (chainNumber upper chain) ++ encodeChain upper chain

def proto : IpHeader → Proto
  | ipv4 _ => .ipv4
  | ipv6 _ _ _ => .ipv6

def union (upper : UInt8) : IpHeader → NetUnion
  | ipv4 h => .ipv4 (h.info upper)
  | ipv6 h chain _ => .ipv6 (h.info (chainNumber upper chain))

end IpHeader

/-- A frame with an IP packet. ICMP may stand on either IP version, and so may ICMPv6. -/
structure IpFrame where
  link : LinkHeader
  ip : IpHeader
  upper : UpperLayer
  payload : Bytes

def IpFrame.encode (f : IpFrame) : Bytes :=
  f.link.encode f.ip.ethertype ++ (f.ip.encode f.upper.number ++ (f.upper.encode ++ f.payload))

/-- What stands before the payload. -/
def IpFrame.headers (f : IpFrame) : Bytes := f.link.encode f.ip.ethertype ++ f.ip.encode f.upper.number ++ f.upper.encode

/-- A frame with an ARP packet, which the link layer may have padded. -/
structure ArpFrame where
  link : LinkHeader
  arp : ArpInfo
  padding : Bytes

def ArpFrame.encode (f : ArpFrame) : Bytes := f.link.encode 0x0806 ++ (encodeArp f.arp ++ f.padding)

inductive Frame where
  | ip (f : IpFrame)
  | arp (f : ArpFrame)

def Frame.encode : Frame → Bytes
  | .ip f => f.encode
  | .arp f => f.encode

end Netscope.Wire
