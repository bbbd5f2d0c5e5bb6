import Netscope.Model.Output
import Netscope.Model.Stats

/-! # Printing the statistics

`ns_stats_print` and what it uses. The texts of floating-point conversions and the
order in which `qsort` leaves equal elements are the library's; they are parameters.
-/
namespace Netscope
open ByteString Numerals

/-- What the printer takes from the C library. -/
structure PrintLibrary where
  /-- `%.2f` of a byte count divided by 1024 as often as the unit says. -/
  scaled : UInt64 → ℕ → Bytes
  /-- `%5.2f` of the percentage of a count in a total, `0.0` for an empty total. -/
  percent : UInt64 → UInt64 → Bytes
  qsort : (Flow → Flow → ℤ) → List Flow → List Flow

section Print
variable (lib : PrintLibrary)

def byteUnits : List Bytes := [ascii "B",ascii "KB",ascii "MB",ascii "GB",ascii "TB"]

/-- The loop of `ns_format_bytes`. A `double` is compared with 1024 as the count itself
is: the thresholds are powers of two below `2 ^ 53`. -/
def byteUnit (value unit : ℕ) : ℕ :=
  if value ≥ 1024 ∧ unit < byteUnits.length - 1 then byteUnit (value / 1024) (unit + 1) else unit
termination_by byteUnits.length - 1 - unit

def nsFormatBytes (bytes : UInt64) (bufLen : ℕ) : Bytes :=
  let unit := byteUnit bytes.toNat 0
  if unit = 0 then snprintf bufLen (decimal bytes.toNat ++ [32] ++ byteUnits.getD unit [])
  else snprintf bufLen (lib.scaled bytes unit ++ [32] ++ byteUnits.getD unit [])

def compareFlowPtrsDesc (fa fb : Flow) : ℤ :=
  if fa.bytes > fb.bytes then -1
  else if fa.bytes < fb.bytes then 1
  else 0

def printProtocolLine (name : String) (count totalPackets : UInt64) : Bytes :=
  if count = 0 then []
  else ascii "  " ++ padRight 32 10 (ascii name) ++ ascii " " ++ padLeft 32 8 (decimal count.toNat) ++ ascii "   " ++
    lib.percent count totalPackets ++ ascii "%" ++ [newline]

/-- A line of 38 box-drawing dashes, each of three bytes. -/
def rule : Bytes := (List.replicate 38 [0xE2,0x94,0x80]).flatten ++ [newline]

/-- The packets that no protocol line counts. -/
def otherPackets (stats : Stats) : UInt64 :=
  stats.totalPackets - stats.tcpPackets - stats.udpPackets - stats.icmpPackets - stats.icmpv6Packets - stats.arpPackets

def printTotals (stats : Stats) (duration : Bytes) : Bytes :=
  rule ++ ascii "NetScope Capture Statistics" ++ [newline] ++ rule ++ [newline] ++
    ascii "Duration:              " ++ duration ++ ascii " s" ++ [newline,newline] ++
    field "Packets:               " (decimal stats.totalPackets.toNat) ++
    field "Captured traffic:      " (nsFormatBytes lib stats.totalCapturedBytes 32) ++
    field "Wire traffic:          " (nsFormatBytes lib stats.totalWireBytes 32) ++ [newline]

def printProtocols (stats : Stats) : Bytes :=
  field "Protocols" [] ++ printProtocolLine lib "TCP" stats.tcpPackets stats.totalPackets ++
    printProtocolLine lib "UDP" stats.udpPackets stats.totalPackets ++
    printProtocolLine lib "ICMP" stats.icmpPackets stats.totalPackets ++
    printProtocolLine lib "ICMPv6" stats.icmpv6Packets stats.totalPackets ++
    printProtocolLine lib "ARP" stats.arpPackets stats.totalPackets ++
    printProtocolLine lib "Other" (otherPackets stats) stats.totalPackets ++ [newline] ++ field "Application" [] ++
    field "  DNS        " (padLeft 32 8 (decimal stats.dnsPackets.toNat)) ++ [newline] ++
    field "Malformed              " (decimal stats.malformedPackets.toNat) ++ rule

/-- The flows in use, in the order of the table. -/
def usedFlows (stats : Stats) : List Flow := stats.flows.toList.filter fun slot => slot.inUse

/-- The entry of the `i`-th conversation, counted from zero. -/
def printConversation (i : ℕ) (f : Flow) : Bytes :=
  (if f.portA ≠ 0 ∨ f.portB ≠ 0 then
    decimal (i + 1) ++ ascii ". " ++ cString f.addrA ++ [colon] ++ decimal f.portA.toNat ++ ascii " <-> " ++
      cString f.addrB ++ [colon] ++ decimal f.portB.toNat ++ [newline]
  else decimal (i + 1) ++ ascii ". " ++ cString f.addrA ++ ascii " <-> " ++ cString f.addrB ++ [newline]) ++
    field "   " (ascii (nsProtoName f.protocol)) ++ field "   packets: " (decimal f.packets.toNat) ++
    field "   traffic: " (nsFormatBytes lib f.bytes 32) ++ [newline]

/-- The conversations that are listed, the largest first. -/
def topConversations (stats : Stats) : List Flow :=
  let sorted := lib.qsort compareFlowPtrsDesc (usedFlows stats)
  sorted.take (if (usedFlows stats).length < 10 then (usedFlows stats).length else 10)

def nsStatsPrint (stats : Stats) (duration : Bytes) : Bytes :=
  printTotals lib stats duration ++ printProtocols lib stats ++
    if stats.flowCount = 0 then []
    else [newline] ++ field "Top conversations:" [] ++ [newline] ++
      ((topConversations lib stats).mapIdx (printConversation lib)).flatten

end Print

end Netscope
