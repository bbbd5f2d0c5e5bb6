import Netscope.Model.Util

/-! # The link, network and transport header parsers

Each parser receives the captured bytes from its own header on and returns the
decoded fields, with the header length where the caller needs it, or the status
other than `NS_PARSE_OK` with which the source gives up.
-/
namespace Netscope
open ByteString

/-- The failing values of `ns_parse_status_t`. -/
inductive ParseError where
  | truncated
  | malformed
  | unsupported
deriving DecidableEq, Repr

abbrev Parsed (α : Type) := Except ParseError α

/-! ## Ethernet -/

abbrev ethertypeIpv4 : UInt16 := 0x0800
abbrev ethertypeArp : UInt16 := 0x0806
abbrev ethertypeIpv6 : UInt16 := 0x86DD
abbrev ethertypeVlan : UInt16 := 0x8100

structure EthInfo where
  destination : MacAddress
  source : MacAddress
  ethertype : UInt16
  hasVlan : Bool
  vlanId : UInt16
deriving DecidableEq, Repr

def nsParseEthernet (data : Bytes) : Parsed (EthInfo × ℕ) :=
  if !nsBoundsCheck data.length 0 14 then .error .truncated
  else if u16 data 12 = ethertypeVlan then
    if !nsBoundsCheck data.length 0 (14 + 4) then .error .truncated
    else .ok ({ destination := slice data 0 6, source := slice data 6 6, ethertype := u16 data 16,
                hasVlan := true, vlanId := u16 data 14 &&& 0x0FFF }, 14 + 4)
  else .ok ({ destination := slice data 0 6, source := slice data 6 6, ethertype := u16 data 12,
              hasVlan := false, vlanId := 0 }, 14)

/-! ## ARP -/

structure ArpInfo where
  operation : UInt16
  senderMac : MacAddress
  senderIp : Ipv4Address
  targetMac : MacAddress
  targetIp : Ipv4Address
deriving DecidableEq, Repr

def nsParseArp (data : Bytes) : Parsed ArpInfo :=
  if !nsBoundsCheck data.length 0 8 then .error .truncated
  else if u16 data 0 ≠ 1 ∨ u16 data 2 ≠ 0x0800 ∨ u8 data 4 ≠ 6 ∨ u8 data 5 ≠ 4 then .error .unsupported
  else if !nsBoundsCheck data.length 8 (2 * (u8 data 4).toNat + 2 * (u8 data 5).toNat) then .error .truncated
  else .ok { operation := u16 data 6, senderMac := slice data 8 6, senderIp := slice data 14 4,
             targetMac := slice data 18 6, targetIp := slice data 24 4 }

/-! ## IPv4 -/

structure Ipv4Info where
  version : UInt8
  ihl : UInt8
  dscp : UInt8
  ecn : UInt8
  totalLength : UInt16
  identification : UInt16
  flagDf : Bool
  flagMf : Bool
  fragmentOffset : UInt16
  ttl : UInt8
  protocol : UInt8
  headerChecksum : UInt16
  source : Ipv4Address
  destination : Ipv4Address
  headerLength : ℕ
  isFragment : Bool
  isInitialFragment : Bool
deriving DecidableEq, Repr

/-- The structure filled once every check of the IPv4 header has passed. -/
def ipv4Fields (data : Bytes) : Ipv4Info :=
  let flagsFrag := u16 data 6
  let flagMf : Bool := flagsFrag &&& 0x2000 ≠ 0
  let fragmentOffset := flagsFrag &&& 0x1FFF
  let isFragment : Bool := flagMf || fragmentOffset ≠ 0
  { version := u8 data 0 >>> 4
    ihl := u8 data 0 &&& 0x0F
    dscp := u8 data 1 >>> 2
    ecn := u8 data 1 &&& 0x03
    totalLength := u16 data 2
    identification := u16 data 4
    flagDf := flagsFrag &&& 0x4000 ≠ 0
    flagMf := flagMf
    fragmentOffset := fragmentOffset
    ttl := u8 data 8
    protocol := u8 data 9
    headerChecksum := u16 data 10
    source := slice data 12 4
    destination := slice data 16 4
    headerLength := (u8 data 0 &&& 0x0F).toNat * 4
    isFragment := isFragment
    isInitialFragment := isFragment && decide (fragmentOffset = 0) }

def nsParseIpv4 (data : Bytes) : Parsed (Ipv4Info × ℕ) :=
  if !nsBoundsCheck data.length 0 20 then .error .truncated
  else if u8 data 0 >>> 4 ≠ 4 then .error .malformed
  else if u8 data 0 &&& 0x0F < 5 then .error .malformed
  else
    let hdrLen := (u8 data 0 &&& 0x0F).toNat * 4
    if !nsBoundsCheck data.length 0 hdrLen then .error .truncated
    else if (u16 data 2).toNat < hdrLen then .error .malformed
    else .ok (ipv4Fields data,hdrLen)

/-! ## IPv6 -/

structure Ipv6Info where
  version : UInt8
  trafficClass : UInt8
  flowLabel : UInt32
  payloadLength : UInt16
  nextHeader : UInt8
  hopLimit : UInt8
  source : Ipv6Address
  destination : Ipv6Address
  headerLength : ℕ
deriving DecidableEq, Repr

def ipv6Fields (data : Bytes) : Ipv6Info where
  version := (u32 data 0 >>> 28).toUInt8
  trafficClass := ((u32 data 0 >>> 20) &&& 0xFF).toUInt8
  flowLabel := u32 data 0 &&& 0x000FFFFF
  payloadLength := u16 data 4
  nextHeader := u8 data 6
  hopLimit := u8 data 7
  source := slice data 8 16
  destination := slice data 24 16
  headerLength := 40

def nsParseIpv6 (data : Bytes) : Parsed (Ipv6Info × ℕ) :=
  if !nsBoundsCheck data.length 0 40 then .error .truncated
  else if (u32 data 0 >>> 28).toUInt8 ≠ 6 then .error .malformed
  else .ok (ipv6Fields data,40)

abbrev ipv6NextHopByHop : UInt8 := 0
abbrev ipv6NextRouting : UInt8 := 43
abbrev ipv6NextFragment : UInt8 := 44
abbrev ipv6NextDestOpts : UInt8 := 60

/-- `NS_IPV6_MAX_EXTENSION_HEADERS`. -/
abbrev ipv6MaxExtensionHeaders : ℕ := 8

/-- The extension headers whose second byte counts their length. -/
def isOptionsHeader (nextHeader : UInt8) : Bool :=
  nextHeader = ipv6NextHopByHop || nextHeader = ipv6NextRouting || nextHeader = ipv6NextDestOpts

/-- The length of a Hop-by-Hop, Routing or Destination Options header. -/
def optionsHeaderLength (data : Bytes) (offset : ℕ) : ℕ := ((u8 data (offset + 1)).toNat + 1) * 8

/-- The loop of `ns_ipv6_skip_extension_headers` with its remaining budget. The
result is the returned flag with the final `*offset` and `*next_header`. -/
def skipExtensionHeaders (data : Bytes) : ℕ → ℕ → UInt8 → Bool × ℕ × UInt8
  | 0, offset, nextHeader => (false,offset,nextHeader)
  | budget + 1, offset, nextHeader =>
    if isOptionsHeader nextHeader then
      if !nsBoundsCheck data.length offset 2 then (false,offset,nextHeader)
      else if !nsBoundsCheck data.length offset (optionsHeaderLength data offset) then (false,offset,nextHeader)
      else skipExtensionHeaders data budget (offset + optionsHeaderLength data offset) (u8 data offset)
    else if nextHeader = ipv6NextFragment then
      if !nsBoundsCheck data.length offset 1 || !nsBoundsCheck data.length offset 8 then (false,offset,nextHeader)
      else skipExtensionHeaders data budget (offset + 8) (u8 data offset)
    else (true,offset,nextHeader)

def nsIpv6SkipExtensionHeaders (data : Bytes) (offset : ℕ) (nextHeader : UInt8) : Bool × ℕ × UInt8 :=
  skipExtensionHeaders data ipv6MaxExtensionHeaders offset nextHeader

/-! ## TCP and UDP -/

structure TcpInfo where
  sourcePort : UInt16
  destinationPort : UInt16
  sequenceNumber : UInt32
  ackNumber : UInt32
  dataOffset : UInt8
  flags : UInt8
  windowSize : UInt16
  checksum : UInt16
  urgentPointer : UInt16
  headerLength : ℕ
deriving DecidableEq, Repr

def tcpFields (data : Bytes) : TcpInfo where
  sourcePort := u16 data 0
  destinationPort := u16 data 2
  sequenceNumber := u32 data 4
  ackNumber := u32 data 8
  dataOffset := u8 data 12 >>> 4
  flags := u8 data 13
  windowSize := u16 data 14
  checksum := u16 data 16
  urgentPointer := u16 data 18
  headerLength := (u8 data 12 >>> 4).toNat * 4

def nsParseTcp (data : Bytes) : Parsed (TcpInfo × ℕ) :=
  if !nsBoundsCheck data.length 0 20 then .error .truncated
  else if u8 data 12 >>> 4 < 5 then .error .malformed
  else
    let hdrLen := (u8 data 12 >>> 4).toNat * 4
    if !nsBoundsCheck data.length 0 hdrLen then .error .truncated
    else .ok (tcpFields data,hdrLen)

structure UdpInfo where
  sourcePort : UInt16
  destinationPort : UInt16
  length : UInt16
  checksum : UInt16
deriving DecidableEq, Repr

def nsParseUdp (data : Bytes) : Parsed UdpInfo :=
  if !nsBoundsCheck data.length 0 8 then .error .truncated
  else if u16 data 4 < 8 then .error .malformed
  else .ok { sourcePort := u16 data 0, destinationPort := u16 data 2, length := u16 data 4, checksum := u16 data 6 }

/-! ## ICMP and ICMPv6

The two parsers differ only in the numbers of their echo types. -/

/-- `ns_icmp_info_t` and `ns_icmpv6_info_t`, which have the same fields. -/
structure IcmpInfo where
  type : UInt8
  code : UInt8
  checksum : UInt16
  identifier : UInt16
  sequence : UInt16
deriving DecidableEq, Repr

def parseEcho (isEcho : UInt8 → Bool) (data : Bytes) : Parsed IcmpInfo :=
  if !nsBoundsCheck data.length 0 4 then .error .truncated
  else if isEcho (u8 data 0) then
    if !nsBoundsCheck data.length 0 8 then .error .truncated
    else .ok { type := u8 data 0, code := u8 data 1, checksum := u16 data 2, identifier := u16 data 4,
               sequence := u16 data 6 }
  else .ok { type := u8 data 0, code := u8 data 1, checksum := u16 data 2, identifier := 0, sequence := 0 }

abbrev icmpEchoReply : UInt8 := 0
abbrev icmpEchoRequest : UInt8 := 8
abbrev icmpv6EchoRequest : UInt8 := 128
abbrev icmpv6EchoReply : UInt8 := 129

def icmpIsEcho (type : UInt8) : Bool := type = icmpEchoRequest || type = icmpEchoReply
def icmpv6IsEcho (type : UInt8) : Bool := type = icmpv6EchoRequest || type = icmpv6EchoReply

def nsParseIcmp (data : Bytes) : Parsed IcmpInfo := parseEcho icmpIsEcho data
def nsParseIcmpv6 (data : Bytes) : Parsed IcmpInfo := parseEcho icmpv6IsEcho data

end Netscope
