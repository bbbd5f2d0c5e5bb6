import Netscope.Layers.ExtensionChain
import Netscope.Work.DnsWork

/-! # The work of the decoder

`packet.c` with the work of its two loops, over the extension headers and inside the DNS
parser. Everything else that a packet costs is fixed.
-/
namespace Netscope.Work
open ByteString CountedRuns Attempt

def skipExtensionHeaders (data : Bytes) : ℕ → ℕ → UInt8 → Counted (Bool × ℕ × UInt8)
  | 0, offset, nextHeader => return (false,offset,nextHeader)
  | budget + 1, offset, nextHeader => Counted.after 1 <|
    if isOptionsHeader nextHeader then
      if !nsBoundsCheck data.length offset 2 then return (false,offset,nextHeader)
      else if !nsBoundsCheck data.length offset (optionsHeaderLength data offset) then return (false,offset,nextHeader)
      else skipExtensionHeaders data budget (offset + optionsHeaderLength data offset) (u8 data offset)
    else if nextHeader = ipv6NextFragment then
      if !nsBoundsCheck data.length offset 1 || !nsBoundsCheck data.length offset 8 then return (false,offset,nextHeader)
      else skipExtensionHeaders data budget (offset + 8) (u8 data offset)
    else return (true,offset,nextHeader)

def nsPacketParseDnsIfApplicable (out : Packet) (data : Bytes) (offset : ℕ) (srcPort dstPort : UInt16) : Counted Packet :=
  if srcPort ≠ 53 ∧ dstPort ≠ 53 then return out
  else if offset > data.length then return out
  else do
    match ← (nsParseDns (data.drop offset)).run with
    | .ok info => return { out with dns := info, hasDns := true }
    | .error _ => return out

def nsPacketParseTransport (out : Packet) (data : Bytes) (offset : ℕ) (proto : UInt8) : Counted Packet :=
  if proto = ipProtoTcp then
    match nsParseTcp (data.drop offset) with
    | .ok (info,headerLen) =>
      nsPacketParseDnsIfApplicable
        (nsPacketSetPayload { out with transport := .tcp info, transportProto := .tcp } data.length (offset + headerLen))
        data (offset + headerLen) info.sourcePort info.destinationPort
    | .error .truncated => return nsPacketMarkMalformed out .tcpTruncated
    | .error _ => return nsPacketMarkMalformed out .tcpInconsistent
  else if proto = ipProtoUdp then
    match nsParseUdp (data.drop offset) with
    | .ok info =>
      nsPacketParseDnsIfApplicable
        (nsPacketSetPayload { out with transport := .udp info, transportProto := .udp } data.length (offset + 8))
        data (offset + 8) info.sourcePort info.destinationPort
    | .error .truncated => return nsPacketMarkMalformed out .udpTruncated
    | .error _ => return nsPacketMarkMalformed out .udpInconsistent
  else if proto = ipProtoIcmp then
    match nsParseIcmp (data.drop offset) with
    | .ok info => return { out with transport := .icmp info, transportProto := .icmp }
    | .error _ => return nsPacketMarkMalformed out .icmpTruncated
  else if proto = ipProtoIcmpv6 then
    match nsParseIcmpv6 (data.drop offset) with
    | .ok info => return { out with transport := .icmpv6 info, transportProto := .icmpv6 }
    | .error _ => return nsPacketMarkMalformed out .icmpv6Truncated
  else return out

def nsPacketParseIpv4 (out : Packet) (data : Bytes) (offset : ℕ) : Counted Packet :=
  match nsParseIpv4 (data.drop offset) with
  | .error .truncated => return nsPacketMarkMalformed out .ipv4Truncated
  | .error _ => return nsPacketMarkMalformed out .ipv4Inconsistent
  | .ok (info,headerLen) =>
    let out := nsPacketSetPayload { out with net := .ipv4 info, networkProto := .ipv4 } data.length (offset + headerLen)
    if info.isFragment && !info.isInitialFragment then return out
    else nsPacketParseTransport out data (offset + headerLen) info.protocol

def nsPacketParseIpv6 (out : Packet) (data : Bytes) (offset : ℕ) : Counted Packet :=
  match nsParseIpv6 (data.drop offset) with
  | .error .truncated => return nsPacketMarkMalformed out .ipv6Truncated
  | .error _ => return nsPacketMarkMalformed out .ipv6Inconsistent
  | .ok (info,headerLen) => do
    let out := { out with net := .ipv6 info, networkProto := .ipv6 }
    match ← skipExtensionHeaders data ipv6MaxExtensionHeaders (offset + headerLen) info.nextHeader with
    | (false,extOffset,_) => return nsPacketSetPayload (nsPacketMarkMalformed out .ipv6ChainInvalid) data.length extOffset
    | (true,extOffset,nextHeader) =>
      nsPacketParseTransport (nsPacketSetPayload out data.length extOffset) data extOffset nextHeader

def nsPacketParseNetwork (out : Packet) (data : Bytes) (offset : ℕ) (ethertype : UInt16) : Counted Packet :=
  if ethertype = ethertypeIpv4 then nsPacketParseIpv4 out data offset
  else if ethertype = ethertypeIpv6 then nsPacketParseIpv6 out data offset
  else if ethertype = ethertypeArp then return nsPacketParseArp out data offset
  else return out

def nsPacketParse (data : Bytes) (originalLength : ℕ) (timestamp : Timestamp) (number : UInt64) (linkType : LinkType) :
    Counted Packet :=
  let out := initialPacket data originalLength timestamp number linkType
  if linkType ≠ .ethernet then return out
  else
    match nsParseEthernet data with
    | .error _ => return nsPacketMarkMalformed out .ethernetTruncated
    | .ok (eth,offset) =>
      let out := nsPacketSetPayload { out with eth := eth, hasEth := true } data.length offset
      nsPacketParseNetwork out data offset eth.ethertype

/-! ## The same packets -/

section Values
variable {data : Bytes} {offset : ℕ}

theorem skipExtensionHeaders_value (budget : ℕ) (nextHeader : UInt8) :
    (skipExtensionHeaders data budget offset nextHeader).value = Netscope.skipExtensionHeaders data budget offset nextHeader := by
  induction budget generalizing offset nextHeader with
  | zero => rfl
  | succ budget ih =>
    rw [skipExtensionHeaders, Netscope.skipExtensionHeaders, Counted.value_after]
    split_ifs
    · rfl
    · rfl
    · exact ih _
    · rfl
    · exact ih _
    · rfl

theorem nsPacketParseDnsIfApplicable_value (out : Packet) (srcPort dstPort : UInt16) :
    (nsPacketParseDnsIfApplicable out data offset srcPort dstPort).value =
      Netscope.nsPacketParseDnsIfApplicable out data offset srcPort dstPort := by
  unfold nsPacketParseDnsIfApplicable Netscope.nsPacketParseDnsIfApplicable
  split_ifs
  · rfl
  · rfl
  · rw [Counted.value_bind, run_value, nsParseDns_result]
    cases Netscope.nsParseDns (data.drop offset) <;> rfl

theorem nsPacketParseTransport_value (out : Packet) (proto : UInt8) :
    (nsPacketParseTransport out data offset proto).value = Netscope.nsPacketParseTransport out data offset proto := by
  unfold nsPacketParseTransport Netscope.nsPacketParseTransport
  split_ifs
  · cases nsParseTcp (data.drop offset) with
    | ok m => exact nsPacketParseDnsIfApplicable_value _ _ _
    | error e => cases e <;> rfl
  · cases nsParseUdp (data.drop offset) with
    | ok m => exact nsPacketParseDnsIfApplicable_value _ _ _
    | error e => cases e <;> rfl
  · cases nsParseIcmp (data.drop offset) <;> rfl
  · cases nsParseIcmpv6 (data.drop offset) <;> rfl
  · rfl

theorem nsPacketParseIpv4_value (out : Packet) :
    (nsPacketParseIpv4 out data offset).value = Netscope.nsPacketParseIpv4 out data offset := by
  unfold nsPacketParseIpv4 Netscope.nsPacketParseIpv4
  cases nsParseIpv4 (data.drop offset) with
  | error e => cases e <;> rfl
  | ok m =>
    dsimp only
    split
    · rfl
    · exact nsPacketParseTransport_value _ _

theorem nsPacketParseIpv6_value (out : Packet) :
    (nsPacketParseIpv6 out data offset).value = Netscope.nsPacketParseIpv6 out data offset := by
  unfold nsPacketParseIpv6 Netscope.nsPacketParseIpv6
  cases nsParseIpv6 (data.drop offset) with
  | error e => cases e <;> rfl
  | ok m =>
    dsimp only
    rw [Counted.value_bind, skipExtensionHeaders_value, nsIpv6SkipExtensionHeaders]
    rcases Netscope.skipExtensionHeaders data ipv6MaxExtensionHeaders (offset + m.2) m.1.nextHeader with ⟨accepted,stop,last⟩
    cases accepted with
    | false => rfl
    | true => exact nsPacketParseTransport_value _ _

theorem nsPacketParse_value (originalLength : ℕ) (timestamp : Timestamp) (number : UInt64) (linkType : LinkType) :
    (nsPacketParse data originalLength timestamp number linkType).value =
      Netscope.nsPacketParse data originalLength timestamp number linkType := by
  unfold nsPacketParse Netscope.nsPacketParse
  dsimp only
  split
  · rfl
  · cases nsParseEthernet data with
    | error e => rfl
    | ok m =>
      dsimp only
      unfold nsPacketParseNetwork Netscope.nsPacketParseNetwork
      split_ifs
      · exact nsPacketParseIpv4_value _
      · exact nsPacketParseIpv6_value _
      · rfl
      · rfl

end Values

/-! ## The bound -/

section Bounds
variable {data : Bytes} {offset : ℕ}

theorem skipExtensionHeaders_work (budget : ℕ) (nextHeader : UInt8) :
    (skipExtensionHeaders data budget offset nextHeader).work ≤ budget := by
  induction budget generalizing offset nextHeader with
  | zero => exact le_rfl
  | succ budget ih =>
    rw [skipExtensionHeaders, Counted.work_after]
    split_ifs
    · exact Nat.le_add_left 1 budget
    · exact Nat.le_add_left 1 budget
    · exact (Nat.add_le_add_left (ih _) 1).trans (Nat.add_comm 1 budget).le
    · exact Nat.le_add_left 1 budget
    · exact (Nat.add_le_add_left (ih _) 1).trans (Nat.add_comm 1 budget).le
    · exact Nat.le_add_left 1 budget

theorem nsPacketParseDnsIfApplicable_work (out : Packet) (srcPort dstPort : UInt16) :
    (nsPacketParseDnsIfApplicable out data offset srcPort dstPort).work ≤ 60 * data.length + 7347 := by
  unfold nsPacketParseDnsIfApplicable
  split_ifs
  · exact Nat.zero_le _
  · exact Nat.zero_le _
  · have hdns : (nsParseDns (data.drop offset)).run.work ≤ 60 * data.length + 7347 := by
      exact (nsParseDns_work (data.drop offset)).trans (by rw [List.length_drop]; omega)
    rw [Counted.work_bind]
    split
    · exact hdns
    · exact hdns

theorem nsPacketParseTransport_work (out : Packet) (proto : UInt8) :
    (nsPacketParseTransport out data offset proto).work ≤ 60 * data.length + 7347 := by
  unfold nsPacketParseTransport
  split_ifs
  · split
    · exact nsPacketParseDnsIfApplicable_work _ _ _
    · exact Nat.zero_le _
    · exact Nat.zero_le _
  · split
    · exact nsPacketParseDnsIfApplicable_work _ _ _
    · exact Nat.zero_le _
    · exact Nat.zero_le _
  · split <;> exact Nat.zero_le _
  · split <;> exact Nat.zero_le _
  · exact Nat.zero_le _

theorem nsPacketParseNetwork_work (out : Packet) (ethertype : UInt16) :
    (nsPacketParseNetwork out data offset ethertype).work ≤ 60 * data.length + 7355 := by
  unfold nsPacketParseNetwork
  split_ifs
  · unfold nsPacketParseIpv4
    split
    · exact Nat.zero_le _
    · exact Nat.zero_le _
    · dsimp only
      split
      · exact Nat.zero_le _
      · exact (nsPacketParseTransport_work _ _).trans (by omega)
  · unfold nsPacketParseIpv6
    split
    · exact Nat.zero_le _
    · exact Nat.zero_le _
    · rename_i info headerLen _
      have hchain : (skipExtensionHeaders data ipv6MaxExtensionHeaders (offset + headerLen) info.nextHeader).work ≤ 8 :=
        skipExtensionHeaders_work _ _
      rw [Counted.work_bind]
      split
      · exact hchain.trans (by omega)
      · exact (Nat.add_le_add hchain (nsPacketParseTransport_work _ _)).trans (by omega)
  · exact Nat.zero_le _
  · exact Nat.zero_le _

/-- The decoder with its work decodes the same packets, and the work on a frame is linear in
its captured bytes: no header, count or compression pointer makes it more. -/
theorem nsPacketParse_work (data : Bytes) (originalLength : ℕ) (timestamp : Timestamp) (number : UInt64)
    (linkType : LinkType) :
    (nsPacketParse data originalLength timestamp number linkType).value =
        Netscope.nsPacketParse data originalLength timestamp number linkType ∧
      (nsPacketParse data originalLength timestamp number linkType).work ≤ 60 * data.length + 7355 := by
  refine ⟨nsPacketParse_value originalLength timestamp number linkType,?_⟩
  unfold nsPacketParse
  dsimp only
  split
  · exact Nat.zero_le _
  · split
    · exact Nat.zero_le _
    · exact nsPacketParseNetwork_work _ _

end Bounds

end Netscope.Work
