import Netscope.Checked.Packet
import Netscope.Model.Output

/-! # Printing with partial accesses

`output.c` and the formatting it uses, with every text buffer an array of cells. A
member of a union is read only where the parser wrote it, and a broken-down time only
where it was set: anything else is a fault.
-/
namespace Netscope.Checked
open ByteString PartialMemory Numerals

/-- What `strftime` prints of the times that `localtime_r` and `gmtime_r` set; nothing where they fail. -/
structure Calendar where
  localtime : Int64 → Option Bytes
  gmtime : Int64 → Option Bytes

/-! ## Members of the unions -/

/-- The protocol whose member was written. -/
def netTag : NetUnion → Proto
  | .zero => .unknown
  | .arp _ => .arp
  | .ipv4 _ => .ipv4
  | .ipv6 _ => .ipv6

def transportTag : TransportUnion → Proto
  | .zero => .unknown
  | .tcp _ => .tcp
  | .udp _ => .udp
  | .icmp _ => .icmp
  | .icmpv6 _ => .icmpv6

/-- The use of the member of `proto`. -/
def netMember {α : Type} (net : NetUnion) (proto : Proto) (get : NetUnion → α) : Exec α :=
  if netTag net = proto then return get net else throw .unset

def transportMember {α : Type} (transport : TransportUnion) (proto : Proto) (get : TransportUnion → α) : Exec α :=
  if transportTag transport = proto then return get transport else throw .unset

/-! ## Texts -/

def nsFormatMac (mac : MacAddress) (buf : Cells) (bufLen : ℕ) : Exec Cells := do
  let mac := u8 mac.toList
  printInto buf 0 bufLen (hex2 (mac 0) ++ [colon] ++ hex2 (mac 1) ++ [colon] ++ hex2 (mac 2) ++ [colon] ++
    hex2 (mac 3) ++ [colon] ++ hex2 (mac 4) ++ [colon] ++ hex2 (mac 5))

/-- The returned string: a constant, or what the buffer holds. -/
def nsDnsTypeName (type : UInt16) (buf : Cells) (bufLen : ℕ) : Exec Bytes := do
  if type = dnsTypeA then return ascii "A"
  else if type = dnsTypeNs then return ascii "NS"
  else if type = dnsTypeCname then return ascii "CNAME"
  else if type = dnsTypePtr then return ascii "PTR"
  else if type = dnsTypeMx then return ascii "MX"
  else if type = dnsTypeTxt then return ascii "TXT"
  else if type = dnsTypeAaaa then return ascii "AAAA"
  else loadString (← printInto buf 0 bufLen (ascii "TYPE" ++ decimal type.toNat))

def tcpFlagsLoop (flags : UInt8) (bufLen : ℕ) : List (UInt8 × Bytes) → Cells → ℕ → Bool → Exec (Cells × ℕ)
  | [], buf, pos, _ => return (buf,pos)
  | (bit,name) :: rest, buf, pos, first => do
    if flags &&& bit = 0 then tcpFlagsLoop flags bufLen rest buf pos first
    else
      let piece := (if first then [] else [comma]) ++ name
      let buf ← printInto buf pos (← sizeSub bufLen pos) piece
      if piece.length ≥ (← sizeSub bufLen pos) then return (buf,pos)
      tcpFlagsLoop flags bufLen rest buf (← sizeAdd pos piece.length) false

def nsTcpFlagsToString (flags : UInt8) (buf : Cells) (bufLen : ℕ) : Exec Cells := do
  let buf ← store buf 0 0
  let (buf,pos) ← tcpFlagsLoop flags bufLen tcpFlagNames buf 0 true
  if pos = 0 then printInto buf 0 bufLen (ascii "-") else return buf

/-- `strftime`: a text that does not fit leaves the buffer undetermined. -/
def strftime (buf : Cells) (size : ℕ) (tm : Option Bytes) : Exec (Cells × ℕ) := do
  let text ← use tm
  if text.length < size then return (← storeRange buf 0 (text ++ [0]),text.length)
  return (fresh buf.length,0)

/-! ## The hex dump -/

def appendLine (buf : Cells) (bufLen pos : ℕ) (text : Bytes) : Exec (Cells × ℕ) := do
  if pos ≥ bufLen then return (buf,pos)
  let buf ← printInto buf pos (← sizeSub bufLen pos) text
  if text.length = 0 then return (buf,pos)
  let remaining ← sizeSub bufLen pos
  let actual ← if text.length < remaining then pure text.length else sizeSub remaining 1
  return (buf,← sizeAdd pos actual)

/-- What stands for byte `i` of the sixteen at `offset`. -/
def columnPart (data : Bytes) (offset count i : ℕ) : Exec Bytes := do
  if i < count then return hex2 (← load data (← sizeAdd offset i)) ++ [32]
  return ascii "   "

/-- The column of that byte position. -/
def dumpColumn (data : Bytes) (offset count : ℕ) (line : Cells × ℕ) (i : ℕ) : Exec (Cells × ℕ) := do
  let line ← appendLine line.1 dumpLineSize line.2 (← columnPart data offset count i)
  if i = 7 then appendLine line.1 dumpLineSize line.2 [32] else return line

/-- The character for one byte, put into the line while there is room. -/
def pushByte (line : Cells × ℕ) (c : Exec UInt8) : Exec (Cells × ℕ) := do
  if line.2 + 1 < dumpLineSize then return (← store line.1 line.2 (← c),← sizeAdd line.2 1)
  return line

/-- The loop over the `remaining` bytes from `offset + i` on. -/
def dumpGutter (data : Bytes) (offset : ℕ) : ℕ → ℕ → Cells × ℕ → Exec (Cells × ℕ)
  | 0, _, line => return line
  | remaining + 1, i, line => do
    if line.2 + 1 < dumpLineSize then
      dumpGutter data offset remaining (i + 1)
        (← pushByte line (do return gutterByte (← load data (← sizeAdd offset i))))
    else return line

/-- One round of the dump, up to the NUL. -/
def dumpLine (data : Bytes) (offset count : ℕ) (line : Cells) : Exec Cells := do
  let line ← appendLine line dumpLineSize 0 (padLeft 48 4 (hex offset) ++ [32,32])
  let line ← (List.range 16).foldlM (dumpColumn data offset count) line
  let line ← appendLine line.1 dumpLineSize line.2 [32]
  let line ← dumpGutter data offset count 0 line
  let line ← pushByte line (pure newline)
  store line.1 line.2 0

/-- The loop of the dump; a further round than `rounds` is a fault. -/
def dumpLoop (data : Bytes) (length : ℕ) : ℕ → ℕ → Cells → Exec Bytes
  | 0, offset, _ => if offset < length then throw .iterations else return []
  | rounds + 1, offset, line => do
    if offset < length then
      let left ← sizeSub length offset
      let line ← dumpLine data offset (if left < 16 then left else 16) line
      let text ← loadString line
      return text ++ (← dumpLoop data length rounds (← sizeAdd offset 16) line)
    else return []

def nsHexDumpFile (data : Bytes) (length : ℕ) : Exec Bytes :=
  dumpLoop data length (length / 16 + 1) 0 (fresh dumpLineSize)

/-! ## Text output -/

section Print
variable (cal : Calendar)

def formatTimestamp (ts : Timestamp) (buf : Cells) (bufLen : ℕ) : Exec Cells := do
  let (buf,pos) ← strftime buf bufLen (cal.localtime ts.seconds)
  printInto buf pos (← sizeSub bufLen pos) ([dot] ++ zeroPadded 3 (ts.microseconds.toInt.tdiv 1000))

def formatNetworkAddrs (pkt : Packet) (src : Cells) (srcLen : ℕ) (dst : Cells) (dstLen : ℕ) : Exec (Cells × Cells) :=
  match pkt.layers.networkProto with
  | .ipv4 => do
    let ip ← netMember pkt.layers.net .ipv4 NetUnion.getIpv4
    return (← nsFormatIpv4 ip.source src srcLen,← nsFormatIpv4 ip.destination dst dstLen)
  | .ipv6 => do
    let ip ← netMember pkt.layers.net .ipv6 NetUnion.getIpv6
    return (← nsFormatIpv6 ip.source.toList src srcLen,← nsFormatIpv6 ip.destination.toList dst dstLen)
  | _ => do return (← printInto src 0 srcLen (ascii "?"),← printInto dst 0 dstLen (ascii "?"))

def printArpLine (pkt : Packet) (color reset : Bytes) : Exec Bytes := do
  let arp ← netMember pkt.layers.net .arp NetUnion.getArp
  let sender ← loadString (← nsFormatIpv4 arp.senderIp (fresh 16) 16)
  let target ← loadString (← nsFormatIpv4 arp.targetIp (fresh 16) 16)
  let senderMac ← loadString (← nsFormatMac arp.senderMac (fresh 18) 18)
  let head := color ++ ascii "ARP" ++ reset ++ ascii "   " ++ sender
  if arp.operation = arpOpRequest then
    return head ++ ascii " -> " ++ target ++ ascii "   Who has " ++ target ++ ascii "?" ++ [newline]
  else if arp.operation = arpOpReply then return head ++ ascii " is at " ++ senderMac ++ [newline]
  else return head ++ ascii " -> " ++ target ++ ascii "   operation=" ++ decimal arp.operation.toNat ++ [newline]

/-- The name, the two endpoints and the remark of a packet's line, in their buffers. -/
structure LineBuffers where
  protoName : Bytes
  srcEp : Cells
  dstEp : Cells
  extra : Cells

/-- The text of an endpoint with a port. -/
def printEndpoint (addr : Cells) (port : UInt16) : Exec Cells := do
  printInto (fresh 64) 0 64 ((← loadString addr) ++ [colon] ++ decimal port.toNat)

/-- The text of an endpoint without one. -/
def printAddress (addr : Cells) : Exec Cells := do printInto (fresh 64) 0 64 (← loadString addr)

/-- The switch over the transport protocol. -/
def lineParts (pkt : Packet) (src dst : Cells) : Exec LineBuffers :=
  match pkt.layers.transportProto with
  | .tcp => do
    let tcp ← transportMember pkt.layers.transport .tcp TransportUnion.getTcp
    let srcEp ← printEndpoint src tcp.sourcePort
    let dstEp ← printEndpoint dst tcp.destinationPort
    let flags ← nsTcpFlagsToString tcp.flags (fresh 32) 32
    let extra ← printInto (zeroed 128) 0 128 (ascii "[" ++ (← loadString flags) ++ ascii "]")
    return { protoName := ascii "TCP", srcEp := srcEp, dstEp := dstEp, extra := extra }
  | .udp => do
    let udp ← transportMember pkt.layers.transport .udp TransportUnion.getUdp
    let srcEp ← printEndpoint src udp.sourcePort
    let dstEp ← printEndpoint dst udp.destinationPort
    let extra ← if pkt.layers.hasDns then printInto (zeroed 128) 0 128 (ascii "DNS") else pure (zeroed 128)
    return { protoName := ascii "UDP", srcEp := srcEp, dstEp := dstEp, extra := extra }
  | .icmp => do
    let srcEp ← printAddress src
    let dstEp ← printAddress dst
    let icmp ← transportMember pkt.layers.transport .icmp TransportUnion.getIcmp
    let extra ← printInto (zeroed 128) 0 128
      (if icmp.type = icmpEchoRequest ∨ icmp.type = icmpEchoReply then
        nsIcmpTypeName icmp.type ++ ascii " id=" ++ decimal icmp.identifier.toNat ++ ascii " seq=" ++
          decimal icmp.sequence.toNat
      else nsIcmpTypeName icmp.type)
    return { protoName := ascii "ICMP", srcEp := srcEp, dstEp := dstEp, extra := extra }
  | .icmpv6 => do
    let srcEp ← printAddress src
    let dstEp ← printAddress dst
    let icmp ← transportMember pkt.layers.transport .icmpv6 TransportUnion.getIcmpv6
    let extra ← printInto (zeroed 128) 0 128 (nsIcmpv6TypeName icmp.type)
    return { protoName := ascii "ICMPv6", srcEp := srcEp, dstEp := dstEp, extra := extra }
  | _ => do
    let srcEp ← printAddress src
    let dstEp ← printAddress dst
    return { protoName := ascii (nsProtoName pkt.layers.networkProto), srcEp := srcEp, dstEp := dstEp, extra := zeroed 128 }

/-- The second line, for a packet with a DNS message. -/
def printDnsLine (dns : Info) : Exec Bytes := do
  if dns.isResponse && dns.decodedAnswerCount > 0 then
    let a ← element dns.answers 0
    let name ← loadString a.name
    let type ← nsDnsTypeName a.type (fresh 16) 16
    return ascii "    Response: " ++ name ++ [32] ++ type ++ [32] ++ (← loadString a.rdataText) ++ [newline]
  else if !dns.isResponse && dns.decodedQuestionCount > 0 then
    let q ← element dns.questions 0
    let name ← loadString q.name
    let type ← nsDnsTypeName q.type (fresh 16) 16
    return ascii "    Query: " ++ name ++ [32] ++ type ++ [newline]
  else return []

/-- The line of a packet that is neither malformed nor ARP. -/
def packetLine (pkt : Packet) (ts color reset : Bytes) : Exec Bytes := do
  let (src,dst) ← formatNetworkAddrs pkt (fresh 46) 46 (fresh 46) 46
  let parts ← lineParts pkt src dst
  return ascii "[" ++ ts ++ ascii "] " ++ color ++ padRight 32 6 parts.protoName ++ reset ++ ascii " " ++
    (← loadString parts.srcEp) ++ ascii " -> " ++ (← loadString parts.dstEp) ++ ascii "   " ++
    (← loadString parts.extra) ++ ascii " " ++ decimal pkt.layers.capturedLength ++ ascii " B" ++ [newline]

def printTextLine (pkt : Packet) (opts : OutputOptions) : Exec Bytes := do
  let color := if opts.color then protocolColor (topProtocol pkt.layers) else []
  let reset := if opts.color then colorReset else []
  let ts ← loadString (← formatTimestamp cal pkt.layers.timestamp (fresh 16) 16)
  if pkt.layers.malformed then
    return malformedLine pkt.layers ts (if opts.color then colorError else []) reset
  if pkt.layers.networkProto = .arp then return ascii "[" ++ ts ++ ascii "] " ++ (← printArpLine pkt color reset)
  let line ← packetLine pkt ts color reset
  if pkt.layers.hasDns then return line ++ (← printDnsLine pkt.dns) else return line

/-! ## The verbose block -/

def verboseLink (pkt : Packet) : Exec Bytes := do
  if pkt.layers.hasEth then
    let destination ← loadString (← nsFormatMac pkt.layers.eth.destination (fresh 18) 18)
    let source ← loadString (← nsFormatMac pkt.layers.eth.source (fresh 18) 18)
    return field "Ethernet" [] ++ field "  Source:      " source ++ field "  Destination: " destination ++
      field "  Type:        0x" (padLeft 48 4 (hex pkt.layers.eth.ethertype.toNat)) ++
      (if pkt.layers.eth.hasVlan then field "  VLAN:        " (decimal pkt.layers.eth.vlanId.toNat) else []) ++ [newline]
  else return []

def verboseNetwork (pkt : Packet) : Exec Bytes :=
  match pkt.layers.networkProto with
  | .ipv4 => do
    let ip ← netMember pkt.layers.net .ipv4 NetUnion.getIpv4
    let source ← loadString (← nsFormatIpv4 ip.source (fresh 16) 16)
    let destination ← loadString (← nsFormatIpv4 ip.destination (fresh 16) 16)
    return field "IPv4" [] ++ field "  Source:      " source ++ field "  Destination: " destination ++
      field "  TTL:         " (decimal ip.ttl.toNat) ++ field "  Protocol:    " (decimal ip.protocol.toNat) ++ [newline]
  | .ipv6 => do
    let ip ← netMember pkt.layers.net .ipv6 NetUnion.getIpv6
    let source ← loadString (← nsFormatIpv6 ip.source.toList (fresh 46) 46)
    let destination ← loadString (← nsFormatIpv6 ip.destination.toList (fresh 46) 46)
    return field "IPv6" [] ++ field "  Source:      " source ++ field "  Destination: " destination ++
      field "  Hop limit:   " (decimal ip.hopLimit.toNat) ++ field "  Next header: " (decimal ip.nextHeader.toNat) ++
      [newline]
  | _ => return []

def verboseTransport (pkt : Packet) : Exec Bytes :=
  match pkt.layers.transportProto with
  | .tcp => do
    let tcp ← transportMember pkt.layers.transport .tcp TransportUnion.getTcp
    let flags ← loadString (← nsTcpFlagsToString tcp.flags (fresh 32) 32)
    return field "TCP" [] ++ field "  Source port:      " (decimal tcp.sourcePort.toNat) ++
      field "  Destination port: " (decimal tcp.destinationPort.toNat) ++
      field "  Sequence:         " (decimal tcp.sequenceNumber.toNat) ++
      field "  Ack:              " (decimal tcp.ackNumber.toNat) ++ field "  Flags:            " flags ++
      field "  Window:           " (decimal tcp.windowSize.toNat) ++ [newline]
  | .udp => do
    let udp ← transportMember pkt.layers.transport .udp TransportUnion.getUdp
    return field "UDP" [] ++ field "  Source port:      " (decimal udp.sourcePort.toNat) ++
      field "  Destination port: " (decimal udp.destinationPort.toNat) ++
      field "  Length:           " (decimal udp.length.toNat) ++ [newline]
  | _ => return []

def printVerboseBlock (pkt : Packet) : Exec Bytes := do
  let ts ← loadString (← formatTimestamp cal pkt.layers.timestamp (fresh 16) 16)
  let link ← verboseLink pkt
  let network ← verboseNetwork pkt
  let transport ← verboseTransport pkt
  return [newline] ++ field "Packet #" (decimal pkt.layers.number.toNat) ++
    field "Timestamp: " (ts ++ [dot] ++ zeroPadded 6 (pkt.layers.timestamp.microseconds.toInt.tmod 1000000)) ++
    field "Captured length: " (decimal pkt.layers.capturedLength ++ ascii " bytes") ++ [newline] ++ link ++ network ++
    transport ++ field "Payload: " (decimal pkt.layers.payloadLength ++ ascii " bytes")

/-! ## JSON output -/

def jsonWriteEscaped (s : Cells) : Exec Bytes := do
  return [quote] ++ (← loadString s).flatMap jsonEscapedByte ++ [quote]

/-- The ports of a packet whose transport has them. -/
def jsonPorts (pkt : Packet) : Exec (Option UInt16 × Option UInt16) :=
  match pkt.layers.transportProto with
  | .tcp => do
    let tcp ← transportMember pkt.layers.transport .tcp TransportUnion.getTcp
    return (some tcp.sourcePort,some tcp.destinationPort)
  | .udp => do
    let udp ← transportMember pkt.layers.transport .udp TransportUnion.getUdp
    return (some udp.sourcePort,some udp.destinationPort)
  | _ => return (none,none)

/-- The members of an endpoint object. -/
def jsonEndpoint (addr : Cells) (port : Option UInt16) : Exec Bytes := do
  return ascii ":\x7b\"ip\":" ++ (← jsonWriteEscaped addr) ++
    (match port with
      | some port => ascii ",\"port\":" ++ decimal port.toNat
      | none => []) ++ ascii "\x7d"

def jsonAddresses (pkt : Packet) : Exec Bytes := do
  if pkt.layers.networkProto = .ipv4 ∨ pkt.layers.networkProto = .ipv6 then
    let (src,dst) ← formatNetworkAddrs pkt (fresh 46) 46 (fresh 46) 46
    let (srcPort,dstPort) ← jsonPorts pkt
    return ascii ",\"source\"" ++ (← jsonEndpoint src srcPort) ++ ascii ",\"destination\"" ++ (← jsonEndpoint dst dstPort)
  else return []

def jsonFlags (pkt : Packet) : Exec Bytes := do
  if pkt.layers.transportProto = .tcp then
    let tcp ← transportMember pkt.layers.transport .tcp TransportUnion.getTcp
    return ascii ",\"tcp\":\x7b\"flags\":[" ++ [comma].intercalate (jsonFlagNames tcp.flags) ++ ascii "]\x7d"
  else return []

def jsonQuestion (pkt : Packet) : Exec Bytes := do
  if pkt.layers.hasDns && pkt.dns.decodedQuestionCount > 0 then
    let q ← element pkt.dns.questions 0
    let name ← jsonWriteEscaped q.name
    let type ← nsDnsTypeName q.type (fresh 16) 16
    return ascii ",\"dns\":\x7b\"question\":" ++ name ++ ascii ",\"type\":" ++ Netscope.jsonWriteEscaped type ++ ascii "\x7d"
  else return []

def printJsonLine (pkt : Packet) : Exec Bytes := do
  let (buf,pos) ← strftime (fresh 32) 32 (cal.gmtime pkt.layers.timestamp.seconds)
  let tsIso ← printInto buf pos (← sizeSub 32 pos)
    ([dot] ++ zeroPadded 3 (pkt.layers.timestamp.microseconds.toInt.tdiv 1000) ++ ascii "Z")
  return ascii "\x7b\"timestamp\":" ++ (← jsonWriteEscaped tsIso) ++ ascii ",\"captured_length\":" ++
    decimal pkt.layers.capturedLength ++ ascii ",\"malformed\":" ++
    ascii (if pkt.layers.malformed then "true" else "false") ++ ascii ",\"protocol\":" ++
    Netscope.jsonWriteEscaped (ascii (nsProtoName (topProtocol pkt.layers))) ++ (← jsonAddresses pkt) ++
    (← jsonFlags pkt) ++ (← jsonQuestion pkt) ++ ascii "\x7d" ++ [newline]

/-! ## Packets -/

def nsOutputPacket (pkt : Packet) (opts : OutputOptions) : Exec Bytes := do
  if opts.format = .json then printJsonLine cal pkt
  else if opts.quiet then return []
  else
    let line ← printTextLine cal pkt opts
    let block ← if opts.verbose then printVerboseBlock cal pkt else pure []
    let dump ← if opts.hex then nsHexDumpFile pkt.layers.rawData pkt.layers.capturedLength else pure []
    return line ++ block ++ dump

end Print

end Netscope.Checked
