import Netscope.Library.ByteClasses
import Netscope.Model.Packet

/-! # Printing packets

`output.c` with the names and the hex dump it uses. A function that writes to a
stream returns the bytes it writes. The texts that `strftime` makes of a time are a
parameter; a DNS name is printed up to its first NUL, as `%s` does.
-/
namespace Netscope
open ByteString Numerals ByteClasses

abbrev newline : UInt8 := 10
abbrev comma : UInt8 := 44

/-- The texts of `strftime`, with `%H:%M:%S` of the local time, which is printable, and
`%Y-%m-%dT%H:%M:%S` of the universal time. -/
structure Clock where
  localTime : Int64 → Bytes
  universalTime : Int64 → Bytes
  localTime_printable : ∀ t, Within Printable (localTime t)

inductive OutputFormat where
  | text
  | json
deriving DecidableEq, Repr

structure OutputOptions where
  color : Bool
  verbose : Bool
  quiet : Bool
  hex : Bool
  format : OutputFormat
deriving DecidableEq, Repr

/-! ## Names -/

def arpOpRequest : UInt16 := 1
def arpOpReply : UInt16 := 2

def nsIcmpTypeName (type : UInt8) : Bytes :=
  if type = 0 then ascii "Echo Reply"
  else if type = 3 then ascii "Destination Unreachable"
  else if type = 5 then ascii "Redirect"
  else if type = 8 then ascii "Echo Request"
  else if type = 11 then ascii "Time Exceeded"
  else ascii "Unknown"

def nsIcmpv6TypeName (type : UInt8) : Bytes :=
  if type = 1 then ascii "Destination Unreachable"
  else if type = 2 then ascii "Packet Too Big"
  else if type = 3 then ascii "Time Exceeded"
  else if type = 128 then ascii "Echo Request"
  else if type = 129 then ascii "Echo Reply"
  else if type = 135 then ascii "Neighbor Solicitation"
  else if type = 136 then ascii "Neighbor Advertisement"
  else ascii "Unknown"

def nsDnsTypeName (type : UInt16) (bufLen : ℕ) : Bytes :=
  if type = dnsTypeA then ascii "A"
  else if type = dnsTypeNs then ascii "NS"
  else if type = dnsTypeCname then ascii "CNAME"
  else if type = dnsTypePtr then ascii "PTR"
  else if type = dnsTypeMx then ascii "MX"
  else if type = dnsTypeTxt then ascii "TXT"
  else if type = dnsTypeAaaa then ascii "AAAA"
  else snprintf bufLen (ascii "TYPE" ++ decimal type.toNat)

/-- The table `kFlags`. -/
def tcpFlagNames : List (UInt8 × Bytes) :=
  [(0x02,ascii "SYN"),(0x10,ascii "ACK"),(0x01,ascii "FIN"),(0x04,ascii "RST"),(0x08,ascii "PSH"),(0x20,ascii "URG"),
   (0x40,ascii "ECE"),(0x80,ascii "CWR")]

/-- The loop of `ns_tcp_flags_to_string`; the result is the buffer with the final `pos`. -/
def tcpFlagsLoop (flags : UInt8) (bufLen : ℕ) : List (UInt8 × Bytes) → Bytes → Bool → Bytes × ℕ
  | [], text, _ => (text,text.length)
  | (bit,name) :: rest, text, first =>
    if flags &&& bit = 0 then tcpFlagsLoop flags bufLen rest text first
    else
      let piece := (if first then [] else [comma]) ++ name
      if piece.length ≥ bufLen - text.length then (text ++ snprintf (bufLen - text.length) piece,text.length)
      else tcpFlagsLoop flags bufLen rest (text ++ piece) false

def nsTcpFlagsToString (flags : UInt8) (bufLen : ℕ) : Bytes :=
  let (text,pos) := tcpFlagsLoop flags bufLen tcpFlagNames [] true
  if pos = 0 then snprintf bufLen (ascii "-") else text

/-! ## The hex dump -/

/-- `append_line` on a buffer of `bufLen` bytes. -/
def appendLine (bufLen : ℕ) (line text : Bytes) : Bytes :=
  if line.length ≥ bufLen then line else line ++ snprintf (bufLen - line.length) text

abbrev dumpLineSize : ℕ := 128

/-- One character put into the line while there is room. -/
def pushByte (line : Bytes) (c : UInt8) : Bytes := if line.length + 1 < dumpLineSize then line ++ [c] else line

/-- The column of one byte position of a dump line. -/
def dumpColumn (bytes line : Bytes) (i : ℕ) : Bytes :=
  let line := appendLine dumpLineSize line (if i < bytes.length then hex2 (u8 bytes i) ++ [32] else ascii "   ")
  if i = 7 then appendLine dumpLineSize line [32] else line

def gutterByte (c : UInt8) : UInt8 := if c ≥ 0x20 ∧ c < 0x7f then c else dot

/-- The line of the dump for the sixteen bytes at `offset`. -/
def dumpLine (data : Bytes) (offset : ℕ) : Bytes :=
  let bytes := chunk data offset 16
  let line := appendLine dumpLineSize [] (padLeft 48 4 (hex offset) ++ [32,32])
  let line := (List.range 16).foldl (dumpColumn bytes) line
  let line := appendLine dumpLineSize line [32]
  pushByte ((bytes.map gutterByte).foldl pushByte line) newline

/-- The lines from `offset` on, as handed to a callback that succeeds. -/
def dumpLines (data : Bytes) (offset : ℕ) : List Bytes :=
  if offset < data.length then dumpLine data offset :: dumpLines data (offset + 16) else []
termination_by data.length - offset

def nsHexDump (data : Bytes) : List Bytes := dumpLines data 0

/-- `ns_hex_dump` from `offset` on: each line goes to `write`, until it refuses one. -/
def hexDumpFrom {σ : Type} (write : σ → Bytes → Bool × σ) (data : Bytes) (offset : ℕ) (ctx : σ) : Bool × σ :=
  if offset < data.length then
    match write ctx (dumpLine data offset) with
    | (true,ctx) => hexDumpFrom write data (offset + 16) ctx
    | (false,ctx) => (false,ctx)
  else (true,ctx)
termination_by data.length - offset

def nsHexDumpWith {σ : Type} (write : σ → Bytes → Bool × σ) (data : Bytes) (ctx : σ) : Bool × σ :=
  hexDumpFrom write data 0 ctx

def nsHexDumpFile (data : Bytes) : Bytes := (nsHexDump data).flatten

/-! ## Text output -/

/-- The conversion `%0*d`. -/
def zeroPadded (width : ℕ) (x : ℤ) : Bytes :=
  if x < 0 then [45] ++ padLeft 48 (width - 1) (decimal x.natAbs) else padLeft 48 width (decimal x.natAbs)

def topProtocol (pkt : Packet) : Proto :=
  if pkt.hasDns then .dns
  else if pkt.transportProto ≠ .unknown then pkt.transportProto
  else pkt.networkProto

def escape : UInt8 := 0x1b

def protocolColor : Proto → Bytes
  | .tcp => escape :: ascii "[36m"
  | .udp => escape :: ascii "[32m"
  | .icmp => escape :: ascii "[33m"
  | .icmpv6 => escape :: ascii "[33m"
  | .dns => escape :: ascii "[35m"
  | .arp => escape :: ascii "[36m"
  | _ => []

def colorError : Bytes := escape :: ascii "[31m"
def colorReset : Bytes := escape :: ascii "[0m"

section Print
variable (clock : Clock)

def formatTimestamp (ts : Timestamp) (bufLen : ℕ) : Bytes :=
  let text := clock.localTime ts.seconds
  text ++ snprintf (bufLen - text.length) ([dot] ++ zeroPadded 3 (ts.microseconds.toInt.tdiv 1000))

def formatNetworkAddrs (pkt : Packet) (srcLen dstLen : ℕ) : Bytes × Bytes :=
  match pkt.networkProto with
  | .ipv4 => (nsFormatIpv4 pkt.net.getIpv4.source srcLen,nsFormatIpv4 pkt.net.getIpv4.destination dstLen)
  | .ipv6 => (nsFormatIpv6 pkt.net.getIpv6.source srcLen,nsFormatIpv6 pkt.net.getIpv6.destination dstLen)
  | _ => (snprintf srcLen (ascii "?"),snprintf dstLen (ascii "?"))

def printArpLine (pkt : Packet) (color reset : Bytes) : Bytes :=
  let sender := nsFormatIpv4 pkt.net.getArp.senderIp 16
  let target := nsFormatIpv4 pkt.net.getArp.targetIp 16
  let senderMac := nsFormatMac pkt.net.getArp.senderMac 18
  let head := color ++ ascii "ARP" ++ reset ++ ascii "   " ++ sender
  if pkt.net.getArp.operation = arpOpRequest then
    head ++ ascii " -> " ++ target ++ ascii "   Who has " ++ target ++ ascii "?" ++ [newline]
  else if pkt.net.getArp.operation = arpOpReply then head ++ ascii " is at " ++ senderMac ++ [newline]
  else head ++ ascii " -> " ++ target ++ ascii "   operation=" ++ decimal pkt.net.getArp.operation.toNat ++ [newline]

/-- The name, the two endpoints and the remark of a packet's line. -/
structure LineParts where
  protoName : Bytes
  srcEp : Bytes
  dstEp : Bytes
  extra : Bytes

/-- The switch over the transport protocol. -/
def lineParts (pkt : Packet) (src dst : Bytes) : LineParts :=
  match pkt.transportProto with
  | .tcp =>
    { protoName := ascii "TCP"
      srcEp := snprintf 64 (src ++ [colon] ++ decimal pkt.transport.getTcp.sourcePort.toNat)
      dstEp := snprintf 64 (dst ++ [colon] ++ decimal pkt.transport.getTcp.destinationPort.toNat)
      extra := snprintf 128 (ascii "[" ++ nsTcpFlagsToString pkt.transport.getTcp.flags 32 ++ ascii "]") }
  | .udp =>
    { protoName := ascii "UDP"
      srcEp := snprintf 64 (src ++ [colon] ++ decimal pkt.transport.getUdp.sourcePort.toNat)
      dstEp := snprintf 64 (dst ++ [colon] ++ decimal pkt.transport.getUdp.destinationPort.toNat)
      extra := if pkt.hasDns then snprintf 128 (ascii "DNS") else [] }
  | .icmp =>
    let icmp := pkt.transport.getIcmp
    { protoName := ascii "ICMP"
      srcEp := snprintf 64 src
      dstEp := snprintf 64 dst
      extra :=
        if icmp.type = icmpEchoRequest ∨ icmp.type = icmpEchoReply then
          snprintf 128 (nsIcmpTypeName icmp.type ++ ascii " id=" ++ decimal icmp.identifier.toNat ++ ascii " seq=" ++
            decimal icmp.sequence.toNat)
        else snprintf 128 (nsIcmpTypeName icmp.type) }
  | .icmpv6 =>
    { protoName := ascii "ICMPv6"
      srcEp := snprintf 64 src
      dstEp := snprintf 64 dst
      extra := snprintf 128 (nsIcmpv6TypeName pkt.transport.getIcmpv6.type) }
  | _ =>
    { protoName := ascii (nsProtoName pkt.networkProto)
      srcEp := snprintf 64 src
      dstEp := snprintf 64 dst
      extra := [] }

/-- The second line, for a packet with a DNS message. -/
def printDnsLine (dns : DnsInfo) : Bytes :=
  if dns.isResponse then
    match dns.answers with
    | a :: _ =>
      ascii "    Response: " ++ cString a.name ++ [32] ++ nsDnsTypeName a.type 16 ++ [32] ++ cString a.rdataText ++ [newline]
    | [] => []
  else
    match dns.questions with
    | q :: _ => ascii "    Query: " ++ cString q.name ++ [32] ++ nsDnsTypeName q.type 16 ++ [newline]
    | [] => []

/-- The line of a packet that could not be decoded. -/
def malformedLine (pkt : Packet) (ts errColor reset : Bytes) : Bytes :=
  ascii "[" ++ ts ++ ascii "] " ++ errColor ++ ascii "MALFORMED" ++ reset ++ ascii " " ++
    ascii ((pkt.malformedReason.map MalformedReason.text).getD "unknown reason") ++ ascii " (" ++
    decimal pkt.capturedLength ++ ascii " bytes captured)" ++ [newline]

/-- The line of any other packet but ARP. -/
def packetLine (pkt : Packet) (ts color reset : Bytes) : Bytes :=
  let (src,dst) := formatNetworkAddrs pkt 46 46
  let parts := lineParts pkt src dst
  ascii "[" ++ ts ++ ascii "] " ++ color ++ padRight 32 6 parts.protoName ++ reset ++ ascii " " ++ parts.srcEp ++
    ascii " -> " ++ parts.dstEp ++ ascii "   " ++ parts.extra ++ ascii " " ++ decimal pkt.capturedLength ++
    ascii " B" ++ [newline]

def printTextLine (pkt : Packet) (opts : OutputOptions) : Bytes :=
  let color := if opts.color then protocolColor (topProtocol pkt) else []
  let reset := if opts.color then colorReset else []
  let ts := formatTimestamp clock pkt.timestamp 16
  if pkt.malformed then malformedLine pkt ts (if opts.color then colorError else []) reset
  else if pkt.networkProto = .arp then ascii "[" ++ ts ++ ascii "] " ++ printArpLine pkt color reset
  else packetLine pkt ts color reset ++ if pkt.hasDns then printDnsLine pkt.dns else []

/-- One labelled line of the verbose block. -/
def field (label : String) (value : Bytes) : Bytes := ascii label ++ value ++ [newline]

def verboseLink (pkt : Packet) : Bytes :=
  if pkt.hasEth then
    field "Ethernet" [] ++ field "  Source:      " (nsFormatMac pkt.eth.source 18) ++
      field "  Destination: " (nsFormatMac pkt.eth.destination 18) ++
      field "  Type:        0x" (padLeft 48 4 (hex pkt.eth.ethertype.toNat)) ++
      (if pkt.eth.hasVlan then field "  VLAN:        " (decimal pkt.eth.vlanId.toNat) else []) ++ [newline]
  else []

def verboseNetwork (pkt : Packet) : Bytes :=
  match pkt.networkProto with
  | .ipv4 =>
    field "IPv4" [] ++ field "  Source:      " (nsFormatIpv4 pkt.net.getIpv4.source 16) ++
      field "  Destination: " (nsFormatIpv4 pkt.net.getIpv4.destination 16) ++
      field "  TTL:         " (decimal pkt.net.getIpv4.ttl.toNat) ++
      field "  Protocol:    " (decimal pkt.net.getIpv4.protocol.toNat) ++ [newline]
  | .ipv6 =>
    field "IPv6" [] ++ field "  Source:      " (nsFormatIpv6 pkt.net.getIpv6.source 46) ++
      field "  Destination: " (nsFormatIpv6 pkt.net.getIpv6.destination 46) ++
      field "  Hop limit:   " (decimal pkt.net.getIpv6.hopLimit.toNat) ++
      field "  Next header: " (decimal pkt.net.getIpv6.nextHeader.toNat) ++ [newline]
  | _ => []

def verboseTransport (pkt : Packet) : Bytes :=
  match pkt.transportProto with
  | .tcp =>
    let tcp := pkt.transport.getTcp
    field "TCP" [] ++ field "  Source port:      " (decimal tcp.sourcePort.toNat) ++
      field "  Destination port: " (decimal tcp.destinationPort.toNat) ++
      field "  Sequence:         " (decimal tcp.sequenceNumber.toNat) ++
      field "  Ack:              " (decimal tcp.ackNumber.toNat) ++
      field "  Flags:            " (nsTcpFlagsToString tcp.flags 32) ++
      field "  Window:           " (decimal tcp.windowSize.toNat) ++ [newline]
  | .udp =>
    let udp := pkt.transport.getUdp
    field "UDP" [] ++ field "  Source port:      " (decimal udp.sourcePort.toNat) ++
      field "  Destination port: " (decimal udp.destinationPort.toNat) ++
      field "  Length:           " (decimal udp.length.toNat) ++ [newline]
  | _ => []

def printVerboseBlock (pkt : Packet) : Bytes :=
  [newline] ++ field "Packet #" (decimal pkt.number.toNat) ++
    field "Timestamp: "
      (formatTimestamp clock pkt.timestamp 16 ++ [dot] ++ zeroPadded 6 (pkt.timestamp.microseconds.toInt.tmod 1000000)) ++
    field "Captured length: " (decimal pkt.capturedLength ++ ascii " bytes") ++ [newline] ++ verboseLink pkt ++
    verboseNetwork pkt ++ verboseTransport pkt ++ field "Payload: " (decimal pkt.payloadLength ++ ascii " bytes")

/-! ## JSON output -/

abbrev quote : UInt8 := 34
abbrev backslash : UInt8 := 92

def jsonEscapedByte (c : UInt8) : Bytes :=
  if c = quote then [backslash,quote]
  else if c = backslash then [backslash,backslash]
  else if c = 10 then [backslash,110]
  else if c = 13 then [backslash,114]
  else if c = 9 then [backslash,116]
  else if c < 0x20 ∨ c ≥ 0x7f then [backslash,117] ++ padLeft 48 4 (hex c.toNat)
  else [c]

def jsonWriteEscaped (s : Bytes) : Bytes := [quote] ++ (cString s).flatMap jsonEscapedByte ++ [quote]

/-- The members of an endpoint object. -/
def jsonEndpoint (addr : Bytes) (port : Option UInt16) : Bytes :=
  ascii ":\x7b\"ip\":" ++ jsonWriteEscaped addr ++
    (match port with
      | some port => ascii ",\"port\":" ++ decimal port.toNat
      | none => []) ++ ascii "\x7d"

/-- The names of the set flags, in the order of the table. -/
def jsonFlagNames (flags : UInt8) : List Bytes :=
  (tcpFlagNames.filter fun f => flags &&& f.1 ≠ 0).map fun f => jsonWriteEscaped f.2

/-- The ports of a packet whose transport has them. -/
def jsonPorts (pkt : Packet) : Option UInt16 × Option UInt16 :=
  match pkt.transportProto with
  | .tcp => (some pkt.transport.getTcp.sourcePort,some pkt.transport.getTcp.destinationPort)
  | .udp => (some pkt.transport.getUdp.sourcePort,some pkt.transport.getUdp.destinationPort)
  | _ => (none,none)

def printJsonLine (pkt : Packet) : Bytes :=
  let text := clock.universalTime pkt.timestamp.seconds
  let tsIso := text ++ snprintf (32 - text.length)
    ([dot] ++ zeroPadded 3 (pkt.timestamp.microseconds.toInt.tdiv 1000) ++ ascii "Z")
  ascii "\x7b\"timestamp\":" ++ jsonWriteEscaped tsIso ++ ascii ",\"captured_length\":" ++ decimal pkt.capturedLength ++
    ascii ",\"malformed\":" ++ ascii (if pkt.malformed then "true" else "false") ++ ascii ",\"protocol\":" ++
    jsonWriteEscaped (ascii (nsProtoName (topProtocol pkt))) ++
    (if pkt.networkProto = .ipv4 ∨ pkt.networkProto = .ipv6 then
      let (src,dst) := formatNetworkAddrs pkt 46 46
      ascii ",\"source\"" ++ jsonEndpoint src (jsonPorts pkt).1 ++ ascii ",\"destination\"" ++
        jsonEndpoint dst (jsonPorts pkt).2
    else []) ++
    (if pkt.transportProto = .tcp then
      ascii ",\"tcp\":\x7b\"flags\":[" ++ [comma].intercalate (jsonFlagNames pkt.transport.getTcp.flags) ++ ascii "]\x7d"
    else []) ++
    (match pkt.hasDns, pkt.dns.questions with
      | true, q :: _ =>
        ascii ",\"dns\":\x7b\"question\":" ++ jsonWriteEscaped q.name ++ ascii ",\"type\":" ++
          jsonWriteEscaped (nsDnsTypeName q.type 16) ++ ascii "\x7d"
      | _, _ => []) ++ ascii "\x7d" ++ [newline]

/-! ## Packets -/

def nsOutputPacket (pkt : Packet) (opts : OutputOptions) : Bytes :=
  if opts.format = .json then printJsonLine clock pkt
  else if opts.quiet then []
  else
    printTextLine clock pkt opts ++ (if opts.verbose then printVerboseBlock clock pkt else []) ++
      if opts.hex then nsHexDumpFile (pkt.rawData.take pkt.capturedLength) else []

end Print

end Netscope
