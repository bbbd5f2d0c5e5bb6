import Netscope.Layers.LayerFrames

/-! # A rule for the layer walk

The walk decodes the link and network layers, hands the packet to the transport step
or stops, and gives up wherever a header is rejected. What holds of every packet
before the transport step and what that step and the two endings make of it therefore
decides what holds of every parsed packet.
-/
namespace Netscope.Layers
open ByteString

/-- `before` holds of the packets on the way to the transport step, `after` where the walk ends. -/
structure WalkRule (c : Capture) (before after : Packet → Prop) : Prop where
  unknown : c.linkType ≠ .ethernet → after (initialPacket c.data c.originalLength c.timestamp c.number c.linkType)
  truncated : after (nsPacketMarkMalformed (initialPacket c.data c.originalLength c.timestamp c.number c.linkType)
    .ethernetTruncated)
  link : ∀ eth offset, before (linkPacket c eth offset)
  setPayload : ∀ {p} n k, before p → before (nsPacketSetPayload p n k)
  arp : ∀ {p} info, before p → p.eth.ethertype = ethertypeArp → before { p with net := .arp info, networkProto := .arp }
  ipv4 : ∀ {p} info, before p → p.eth.ethertype = ethertypeIpv4 → before { p with net := .ipv4 info, networkProto := .ipv4 }
  ipv6 : ∀ {p} info, before p → p.eth.ethertype = ethertypeIpv6 → before { p with net := .ipv6 info, networkProto := .ipv6 }
  stop : ∀ {p}, before p → after p
  reject : ∀ {p} reason, before p → after (nsPacketMarkMalformed p reason)
  transport : ∀ {p} offset proto, before p → p.networkProto = .ipv4 ∨ p.networkProto = .ipv6 →
    after (nsPacketParseTransport p c.data offset proto)

theorem setPayload_markMalformed (p : Packet) (reason : MalformedReason) (n k : ℕ) :
    nsPacketSetPayload (nsPacketMarkMalformed p reason) n k = nsPacketMarkMalformed (nsPacketSetPayload p n k) reason := by
  rw [nsPacketSetPayload_eq, nsPacketSetPayload_eq]
  rfl

namespace WalkRule
variable {c : Capture} {before after : Packet → Prop} (rule : WalkRule c before after)
include rule

section Network
variable {p : Packet} (h : before p) (offset : ℕ)
include h

theorem parseIpv4 (htype : p.eth.ethertype = ethertypeIpv4) : after (nsPacketParseIpv4 p c.data offset) := by
  cases hm : nsParseIpv4 (c.data.drop offset) with
  | error e =>
    unfold nsPacketParseIpv4
    rw [hm]
    cases e <;> exact rule.reject _ h
  | ok m =>
    obtain ⟨info,headerLen⟩ := m
    have hnet := rule.setPayload c.data.length (offset + headerLen) (rule.ipv4 info h htype)
    cases hf : info.isFragment && !info.isInitialFragment with
    | true =>
      rw [nsPacketParseIpv4_stopped p hm hf]
      exact rule.stop hnet
    | false =>
      rw [nsPacketParseIpv4_continued p hm hf]
      apply rule.transport _ _ hnet
      left
      rw [nsPacketSetPayload_eq]

theorem parseIpv6 (htype : p.eth.ethertype = ethertypeIpv6) : after (nsPacketParseIpv6 p c.data offset) := by
  cases hm : nsParseIpv6 (c.data.drop offset) with
  | error e =>
    unfold nsPacketParseIpv6
    rw [hm]
    cases e <;> exact rule.reject _ h
  | ok m =>
    obtain ⟨info,headerLen⟩ := m
    have hnet := rule.ipv6 info h htype
    rcases hs : nsIpv6SkipExtensionHeaders c.data (offset + headerLen) info.nextHeader with ⟨accepted,extOffset,nextHeader⟩
    cases accepted with
    | false =>
      rw [nsPacketParseIpv6_rejected p hm hs, setPayload_markMalformed]
      exact rule.reject _ (rule.setPayload _ _ hnet)
    | true =>
      rw [nsPacketParseIpv6_accepted p hm hs]
      apply rule.transport _ _ (rule.setPayload c.data.length extOffset hnet)
      right
      rw [nsPacketSetPayload_eq]

theorem parseArp (htype : p.eth.ethertype = ethertypeArp) : after (nsPacketParseArp p c.data offset) := by
  unfold nsPacketParseArp
  cases nsParseArp (c.data.drop offset) with
  | ok info => exact rule.stop (rule.setPayload _ _ (rule.arp info h htype))
  | error e =>
    cases e with
    | truncated =>
      dsimp only
      rw [setPayload_markMalformed]
      exact rule.reject _ (rule.setPayload _ _ h)
    | malformed | unsupported => exact rule.stop (rule.setPayload _ _ h)

theorem parseNetwork : after (nsPacketParseNetwork p c.data offset p.eth.ethertype) := by
  unfold nsPacketParseNetwork
  split
  · rename_i htype
    exact rule.parseIpv4 h offset htype
  · split
    · rename_i htype
      exact rule.parseIpv6 h offset htype
    · split
      · rename_i htype
        exact rule.parseArp h offset htype
      · exact rule.stop h

end Network

/-- The conclusion of the rule. -/
theorem packet : after c.packet := by
  by_cases hl : c.linkType = .ethernet
  · cases hm : nsParseEthernet c.data with
    | error e =>
      rw [packet_of_error hl hm]
      exact rule.truncated
    | ok m =>
      obtain ⟨eth,offset⟩ := m
      have heth : (linkPacket c eth offset).eth = eth := (setPayload_keeps _ _ _).eth
      have hwalk := rule.parseNetwork (rule.link eth offset) offset
      rw [heth] at hwalk
      rw [packet_of_ethernet hl hm]
      exact hwalk
  · rw [packet_of_unknown hl]
    exact rule.unknown hl

end WalkRule

/-- Everything the DNS step can do to a packet. -/
theorem dnsIfApplicable_cases (p : Packet) (data : Bytes) (offset : ℕ) (srcPort dstPort : UInt16) :
    nsPacketParseDnsIfApplicable p data offset srcPort dstPort = p ∨
      ∃ info, (srcPort = 53 ∨ dstPort = 53) ∧ offset ≤ data.length ∧ nsParseDns (data.drop offset) = .ok info ∧
        nsPacketParseDnsIfApplicable p data offset srcPort dstPort = { p with dns := info, hasDns := true } := by
  unfold nsPacketParseDnsIfApplicable
  by_cases hport : srcPort ≠ 53 ∧ dstPort ≠ 53
  · left
    rw [if_pos hport]
  · rw [if_neg hport]
    by_cases hoffset : offset > data.length
    · left
      rw [if_pos hoffset]
    · rw [if_neg hoffset]
      cases hm : nsParseDns (data.drop offset) with
      | error e => exact .inl rfl
      | ok info => exact .inr ⟨info,by tauto,by omega,rfl,rfl⟩

end Netscope.Layers
