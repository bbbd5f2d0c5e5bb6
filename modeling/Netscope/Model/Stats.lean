import Netscope.Model.Packet

/-! # Capture statistics and the flow table

`ns_stats_t` with its 64-bit counters and the open-addressing table of 1024 flows.
An address buffer of 46 bytes is modelled by the bytes before its NUL.
-/
namespace Netscope
open ByteString

abbrev maxFlows : ℕ := 1024

instance : NeZero maxFlows := ⟨by decide⟩

/-- The size of the textual address buffers. -/
abbrev addrSize : ℕ := 46

structure Flow where
  inUse : Bool
  protocol : Proto
  addrA : Bytes
  addrB : Bytes
  portA : UInt16
  portB : UInt16
  packets : UInt64
  bytes : UInt64
deriving DecidableEq, Repr

def Flow.zero : Flow := ⟨false,.unknown,[],[],0,0,0,0⟩

structure Stats where
  totalPackets : UInt64
  totalCapturedBytes : UInt64
  totalWireBytes : UInt64
  ipv4Packets : UInt64
  ipv6Packets : UInt64
  arpPackets : UInt64
  tcpPackets : UInt64
  udpPackets : UInt64
  icmpPackets : UInt64
  icmpv6Packets : UInt64
  dnsPackets : UInt64
  malformedPackets : UInt64
  unsupportedPackets : UInt64
  flows : Vector Flow maxFlows
  flowCount : ℕ

def nsStatsInit : Stats where
  totalPackets := 0
  totalCapturedBytes := 0
  totalWireBytes := 0
  ipv4Packets := 0
  ipv6Packets := 0
  arpPackets := 0
  tcpPackets := 0
  udpPackets := 0
  icmpPackets := 0
  icmpv6Packets := 0
  dnsPackets := 0
  malformedPackets := 0
  unsupportedPackets := 0
  flows := .replicate maxFlows .zero
  flowCount := 0

/-! ## Endpoints -/

/-- What `extract_endpoints` writes through its out parameters. -/
structure Endpoints where
  proto : Proto
  addrA : Bytes
  portA : UInt16
  addrB : Bytes
  portB : UInt16
deriving DecidableEq, Repr

/-- The textual addresses of an IP packet. -/
def networkAddresses (pkt : Packet) : Option (Bytes × Bytes) :=
  match pkt.networkProto with
  | .ipv4 => some (nsFormatIpv4 pkt.net.getIpv4.source addrSize,nsFormatIpv4 pkt.net.getIpv4.destination addrSize)
  | .ipv6 => some (nsFormatIpv6 pkt.net.getIpv6.source addrSize,nsFormatIpv6 pkt.net.getIpv6.destination addrSize)
  | _ => none

/-- The flow protocol and the two ports of a packet with a transport header. -/
def transportPorts (pkt : Packet) : Option (Proto × UInt16 × UInt16) :=
  match pkt.transportProto with
  | .tcp => some (.tcp,pkt.transport.getTcp.sourcePort,pkt.transport.getTcp.destinationPort)
  | .udp => some (.udp,pkt.transport.getUdp.sourcePort,pkt.transport.getUdp.destinationPort)
  | .icmp => some (.icmp,0,0)
  | .icmpv6 => some (.icmpv6,0,0)
  | _ => none

def extractEndpoints (pkt : Packet) : Option Endpoints :=
  if pkt.networkProto = .arp then
    some { proto := .arp, addrA := nsFormatIpv4 pkt.net.getArp.senderIp addrSize, portA := 0
           addrB := nsFormatIpv4 pkt.net.getArp.targetIp addrSize, portB := 0 }
  else do
    let (addrA,addrB) ← networkAddresses pkt
    let (proto,portA,portB) ← transportPorts pkt
    return { proto := proto, addrA := addrA, portA := portA, addrB := addrB, portB := portB }

/-! ## The flow table -/

/-- `strcmp` on the bytes before the NULs, as unsigned characters. -/
def compareBytes : Bytes → Bytes → ℤ
  | [], [] => 0
  | [], b :: _ => -(b.toNat : ℤ)
  | a :: _, [] => a.toNat
  | a :: as, b :: bs => if a = b then compareBytes as bs else (a.toNat : ℤ) - b.toNat

def strcmp (a b : Bytes) : ℤ := compareBytes (cString a) (cString b)

/-- The enumerator values of `ns_proto_t`. -/
def Proto.number : Proto → UInt32
  | .unknown => 0
  | .arp => 1
  | .ipv4 => 2
  | .ipv6 => 3
  | .tcp => 4
  | .udp => 5
  | .icmp => 6
  | .icmpv6 => 7
  | .dns => 8

/-- The four bytes of the enumeration in memory, on a little-endian machine. -/
def Proto.bytes (proto : Proto) : Bytes :=
  [proto.number.toUInt8,(proto.number >>> 8).toUInt8,(proto.number >>> 16).toUInt8,(proto.number >>> 24).toUInt8]

def hashStep (h : UInt32) (b : UInt8) : UInt32 := (h ^^^ b.toUInt32) * 16777619

def hashFlow (proto : Proto) (addrA : Bytes) (portA : UInt16) (addrB : Bytes) (portB : UInt16) : UInt32 :=
  (proto.bytes ++ cString addrA ++ cString addrB ++
    [(portA &&& 0xff).toUInt8,(portA >>> 8).toUInt8,(portB &&& 0xff).toUInt8,(portB >>> 8).toUInt8]).foldl
    hashStep 2166136261

/-- Whether a slot holds the flow with these canonical endpoints. -/
def Flow.isFor (slot : Flow) (e : Endpoints) : Bool :=
  slot.inUse && slot.protocol = e.proto && strcmp slot.addrA e.addrA = 0 && strcmp slot.addrB e.addrB = 0 &&
    slot.portA = e.portA && slot.portB = e.portB

/-- The slot after one more packet. -/
def Flow.addPacket (slot : Flow) (bytes : UInt64) : Flow :=
  { slot with packets := slot.packets + 1, bytes := slot.bytes + bytes }

/-- The slot of a new flow. -/
def Flow.start (e : Endpoints) (bytes : UInt64) : Flow where
  inUse := true
  protocol := e.proto
  addrA := snprintf addrSize (cString e.addrA)
  addrB := snprintf addrSize (cString e.addrB)
  portA := e.portA
  portB := e.portB
  packets := 1
  bytes := bytes

/-- The probe loop of `record_flow`. -/
def recordFlowLoop (stats : Stats) (e : Endpoints) (bytes : UInt64) (start : ℕ) : ℕ → ℕ → Stats
  | 0, _ => stats
  | remaining + 1, i =>
    let idx := Fin.ofNat maxFlows (start + i)
    let slot := stats.flows.get idx
    if slot.isFor e then { stats with flows := stats.flows.set idx (slot.addPacket bytes) idx.isLt }
    else if !slot.inUse then
      { stats with flows := stats.flows.set idx (Flow.start e bytes) idx.isLt, flowCount := stats.flowCount + 1 }
    else recordFlowLoop stats e bytes start remaining (i + 1)

/-- Whether the larger endpoint comes first. -/
def Endpoints.isReversed (e : Endpoints) : Bool :=
  strcmp e.addrA e.addrB > 0 || (strcmp e.addrA e.addrB = 0 && e.portA > e.portB)

def Endpoints.swap (e : Endpoints) : Endpoints :=
  { e with addrA := e.addrB, portA := e.portB, addrB := e.addrA, portB := e.portA }

/-- Direction is forgotten: the smaller endpoint comes first. -/
def Endpoints.canonical (e : Endpoints) : Endpoints := if e.isReversed then e.swap else e

def recordFlow (stats : Stats) (e : Endpoints) (bytes : UInt64) : Stats :=
  let e := e.canonical
  let start := (hashFlow e.proto e.addrA e.portA e.addrB e.portB).toNat % maxFlows
  recordFlowLoop stats e bytes start maxFlows 0

/-! ## Updates -/

def countTotals (stats : Stats) (pkt : Packet) : Stats :=
  { stats with
    totalPackets := stats.totalPackets + 1
    totalCapturedBytes := stats.totalCapturedBytes + UInt64.ofNat pkt.capturedLength
    totalWireBytes := stats.totalWireBytes + UInt64.ofNat pkt.originalLength
    malformedPackets := if pkt.malformed then stats.malformedPackets + 1 else stats.malformedPackets }

def countNetwork (stats : Stats) (pkt : Packet) : Stats :=
  match pkt.networkProto with
  | .ipv4 => { stats with ipv4Packets := stats.ipv4Packets + 1 }
  | .ipv6 => { stats with ipv6Packets := stats.ipv6Packets + 1 }
  | .arp => { stats with arpPackets := stats.arpPackets + 1 }
  | _ =>
    if pkt.hasEth && !pkt.malformed then { stats with unsupportedPackets := stats.unsupportedPackets + 1 } else stats

def countTransport (stats : Stats) (pkt : Packet) : Stats :=
  match pkt.transportProto with
  | .tcp => { stats with tcpPackets := stats.tcpPackets + 1 }
  | .udp => { stats with udpPackets := stats.udpPackets + 1 }
  | .icmp => { stats with icmpPackets := stats.icmpPackets + 1 }
  | .icmpv6 => { stats with icmpv6Packets := stats.icmpv6Packets + 1 }
  | _ => stats

def countDns (stats : Stats) (pkt : Packet) : Stats :=
  if pkt.hasDns then { stats with dnsPackets := stats.dnsPackets + 1 } else stats

/-- The counters of `ns_stats_update`, before the flow is recorded. -/
def countPacket (stats : Stats) (pkt : Packet) : Stats :=
  countDns (countTransport (countNetwork (countTotals stats pkt) pkt) pkt) pkt

def nsStatsUpdate (stats : Stats) (pkt : Packet) : Stats :=
  let stats := countPacket stats pkt
  match extractEndpoints pkt with
  | some e => recordFlow stats e (UInt64.ofNat pkt.capturedLength)
  | none => stats

end Netscope
