import Netscope.Checked.Output
import Netscope.Model.StatsPrint

/-! # Statistics with partial accesses

`stats.c` with the address texts of every flow in arrays of cells. A text is read up to
its NUL, a slot only inside the table, and a pointer of the sorted array only once it
was set.
-/
namespace Netscope.Checked
open ByteString PartialMemory Numerals

structure Flow where
  inUse : Bool
  protocol : Proto
  addrA : Cells
  addrB : Cells
  portA : UInt16
  portB : UInt16
  packets : UInt64
  bytes : UInt64

/-- The statistics: the flow table is kept apart, as arrays. -/
structure Stats where
  counters : Netscope.Stats
  flows : List Flow

/-- The structure after `memset`. -/
def nsStatsInit : Stats where
  counters := Netscope.nsStatsInit
  flows := List.replicate maxFlows ⟨false,.unknown,zeroed addrSize,zeroed addrSize,0,0,0,0⟩

/-! ## Endpoints -/

structure Endpoints where
  proto : Proto
  addrA : Cells
  portA : UInt16
  addrB : Cells
  portB : UInt16

/-- The texts of the two addresses of an IP packet. -/
def networkAddresses (pkt : Packet) : Exec (Option (Cells × Cells)) :=
  match pkt.layers.networkProto with
  | .ipv4 => do
    let ip ← netMember pkt.layers.net .ipv4 NetUnion.getIpv4
    let addrA ← nsFormatIpv4 ip.source (fresh addrSize) addrSize
    let addrB ← nsFormatIpv4 ip.destination (fresh addrSize) addrSize
    return some (addrA,addrB)
  | .ipv6 => do
    let ip ← netMember pkt.layers.net .ipv6 NetUnion.getIpv6
    let addrA ← nsFormatIpv6 ip.source.toList (fresh addrSize) addrSize
    let addrB ← nsFormatIpv6 ip.destination.toList (fresh addrSize) addrSize
    return some (addrA,addrB)
  | _ => return none

/-- The flow protocol and the two ports of a packet with a transport header. -/
def transportPorts (pkt : Packet) : Exec (Option (Proto × UInt16 × UInt16)) :=
  match pkt.layers.transportProto with
  | .tcp => do
    let tcp ← transportMember pkt.layers.transport .tcp TransportUnion.getTcp
    return some (.tcp,tcp.sourcePort,tcp.destinationPort)
  | .udp => do
    let udp ← transportMember pkt.layers.transport .udp TransportUnion.getUdp
    return some (.udp,udp.sourcePort,udp.destinationPort)
  | .icmp => return some (.icmp,0,0)
  | .icmpv6 => return some (.icmpv6,0,0)
  | _ => return none

def extractArp (pkt : Packet) : Exec (Option Endpoints) := do
  let arp ← netMember pkt.layers.net .arp NetUnion.getArp
  let addrA ← nsFormatIpv4 arp.senderIp (fresh addrSize) addrSize
  let addrB ← nsFormatIpv4 arp.targetIp (fresh addrSize) addrSize
  return some { proto := .arp, addrA := addrA, portA := 0, addrB := addrB, portB := 0 }

def extractEndpoints (pkt : Packet) : Exec (Option Endpoints) :=
  if pkt.layers.networkProto = .arp then extractArp pkt
  else do
    match ← networkAddresses pkt with
    | none => return none
    | some (addrA,addrB) =>
      match ← transportPorts pkt with
      | none => return none
      | some (proto,portA,portB) =>
        return some { proto := proto, addrA := addrA, portA := portA, addrB := addrB, portB := portB }

/-! ## The flow table -/

/-- Both strings are read up to the first difference or the common NUL. -/
def strcmp : Cells → Cells → Exec ℤ
  | some a :: as, some b :: bs =>
    if a = b then if a = 0 then return 0 else strcmp as bs else return (a.toNat : ℤ) - b.toNat
  | [], _ | _, [] => throw .readOutside
  | _, _ => throw .unset

/-- The loop over one address. -/
def hashString : Cells → UInt32 → Exec UInt32
  | [], _ => throw .readOutside
  | none :: _, _ => throw .unset
  | some b :: rest, h => if b = 0 then return h else hashString rest (hashStep h b)

def hashFlow (e : Endpoints) : Exec UInt32 := do
  let h ← hashString e.addrA (e.proto.bytes.foldl hashStep 2166136261)
  let h ← hashString e.addrB h
  return [(e.portA &&& 0xff).toUInt8,(e.portA >>> 8).toUInt8,(e.portB &&& 0xff).toUInt8,(e.portB >>> 8).toUInt8].foldl
    hashStep h

/-- Whether a slot holds the flow with these canonical endpoints; its texts are read only when it is in use. -/
def Flow.isFor (slot : Flow) (e : Endpoints) : Exec Bool := do
  if slot.inUse && slot.protocol = e.proto then
    let a ← strcmp slot.addrA e.addrA
    if a = 0 then
      let b ← strcmp slot.addrB e.addrB
      return decide (b = 0) && slot.portA = e.portA && slot.portB = e.portB
    else return false
  else return false

def Flow.addPacket (slot : Flow) (bytes : UInt64) : Flow :=
  { slot with packets := slot.packets + 1, bytes := slot.bytes + bytes }

/-- The slot of a new flow. -/
def Flow.start (slot : Flow) (e : Endpoints) (bytes : UInt64) : Exec Flow := do
  let addrA ← printInto slot.addrA 0 addrSize (← loadString e.addrA)
  let addrB ← printInto slot.addrB 0 addrSize (← loadString e.addrB)
  return { inUse := true, protocol := e.proto, addrA := addrA, addrB := addrB, portA := e.portA, portB := e.portB
           packets := 1, bytes := bytes }

/-- The probe loop of `record_flow`. -/
def recordFlowLoop (stats : Stats) (e : Endpoints) (bytes : UInt64) (start : ℕ) : ℕ → ℕ → Exec Stats
  | 0, _ => return stats
  | remaining + 1, i => do
    let idx := (start + i) % maxFlows
    let slot ← element stats.flows idx
    if ← slot.isFor e then
      return { stats with flows := ← setElement stats.flows idx (slot.addPacket bytes) }
    else if !slot.inUse then
      let flows ← setElement stats.flows idx (← slot.start e bytes)
      let count ← sizeAdd stats.counters.flowCount 1
      return { counters := { stats.counters with flowCount := count }, flows := flows }
    else recordFlowLoop stats e bytes start remaining (i + 1)

def Endpoints.swap (e : Endpoints) : Endpoints :=
  { e with addrA := e.addrB, portA := e.portB, addrB := e.addrA, portB := e.portA }

/-- Direction is forgotten: the smaller endpoint comes first. -/
def Endpoints.canonical (e : Endpoints) : Exec Endpoints := do
  let order ← strcmp e.addrA e.addrB
  if order > 0 || (order = 0 && e.portA > e.portB) then return e.swap
  else return e

def recordFlow (stats : Stats) (e : Endpoints) (bytes : UInt64) : Exec Stats := do
  let e ← e.canonical
  let h ← hashFlow e
  recordFlowLoop stats e bytes (h.toNat % maxFlows) maxFlows 0

def nsStatsUpdate (stats : Stats) (pkt : Packet) : Exec Stats := do
  let stats := { stats with counters := countPacket stats.counters pkt.layers }
  match ← extractEndpoints pkt with
  | some e => recordFlow stats e (UInt64.ofNat pkt.layers.capturedLength)
  | none => return stats

/-! ## The report -/

/-- What the printer takes from the C library. -/
structure PrintLibrary where
  scaled : UInt64 → ℕ → Bytes
  percent : UInt64 → UInt64 → Bytes
  qsort : (Flow → Flow → ℤ) → List Flow → List Flow

def compareFlowPtrsDesc (fa fb : Flow) : ℤ :=
  if fa.bytes > fb.bytes then -1
  else if fa.bytes < fb.bytes then 1
  else 0

section Print
variable (lib : PrintLibrary)

/-- The same conversions for the parts of the report that read no text. -/
def PrintLibrary.conversions : Netscope.PrintLibrary := ⟨lib.scaled,lib.percent,fun _ flows => flows⟩

def nsFormatBytes (bytes : UInt64) (buf : Cells) (bufLen : ℕ) : Exec Cells := do
  let unit := byteUnit bytes.toNat 0
  let name ← element byteUnits unit
  if unit = 0 then printInto buf 0 bufLen (decimal bytes.toNat ++ [32] ++ name)
  else printInto buf 0 bufLen (lib.scaled bytes unit ++ [32] ++ name)

def printTotals (stats : Netscope.Stats) (duration : Bytes) : Exec Bytes := do
  let captured ← nsFormatBytes lib stats.totalCapturedBytes (fresh 32) 32
  let wire ← nsFormatBytes lib stats.totalWireBytes (fresh 32) 32
  return rule ++ ascii "NetScope Capture Statistics" ++ [newline] ++ rule ++ [newline] ++
    ascii "Duration:              " ++ duration ++ ascii " s" ++ [newline,newline] ++
    field "Packets:               " (decimal stats.totalPackets.toNat) ++
    field "Captured traffic:      " (← loadString captured) ++ field "Wire traffic:          " (← loadString wire) ++
    [newline]

/-- One round of the loop that collects pointers to the flows in use. -/
def collectFlow (flows : List Flow) (s : List (Option Flow) × ℕ) (i : ℕ) : Exec (List (Option Flow) × ℕ) := do
  let slot ← element flows i
  if slot.inUse then return (← setElement s.1 s.2 (some slot),← sizeAdd s.2 1)
  else return s

/-- `qsort` of the first `n` pointers, which it reads through. -/
def sortPointers (sorted : List (Option Flow)) (n : ℕ) : Exec (List (Option Flow)) := do
  if n ≤ sorted.length then
    let flows ← (sorted.take n).mapM use
    return (lib.qsort compareFlowPtrsDesc flows).map some ++ sorted.drop n
  else throw .readOutside

/-- The entry of the `i`-th pointer. -/
def printConversation (sorted : List (Option Flow)) (i : ℕ) : Exec Bytes := do
  let f ← use (← element sorted i)
  let bytes ← nsFormatBytes lib f.bytes (fresh 32) 32
  let addrA ← loadString f.addrA
  let addrB ← loadString f.addrB
  return (if f.portA ≠ 0 ∨ f.portB ≠ 0 then
    decimal (i + 1) ++ ascii ". " ++ addrA ++ [colon] ++ decimal f.portA.toNat ++ ascii " <-> " ++ addrB ++ [colon] ++
      decimal f.portB.toNat ++ [newline]
  else decimal (i + 1) ++ ascii ". " ++ addrA ++ ascii " <-> " ++ addrB ++ [newline]) ++
    field "   " (ascii (nsProtoName f.protocol)) ++ field "   packets: " (decimal f.packets.toNat) ++
    field "   traffic: " (← loadString bytes) ++ [newline]

def printConversations (flows : List Flow) : Exec Bytes := do
  let (sorted,n) ← (List.range maxFlows).foldlM (collectFlow flows) (List.replicate maxFlows none,0)
  let sorted ← sortPointers lib sorted n
  let entries ← (List.range (if n < 10 then n else 10)).mapM (printConversation lib sorted)
  return [newline] ++ field "Top conversations:" [] ++ [newline] ++ entries.flatten

def nsStatsPrint (stats : Stats) (duration : Bytes) : Exec Bytes := do
  let totals ← printTotals lib stats.counters duration
  let head := totals ++ printProtocols lib.conversions stats.counters
  if stats.counters.flowCount = 0 then return head
  else return head ++ (← printConversations lib stats.flows)

end Print

end Netscope.Checked
