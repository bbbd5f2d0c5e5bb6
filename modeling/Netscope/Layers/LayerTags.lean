import Netscope.Dns.MessageSpecs
import Netscope.Layers.WalkRule

/-! # The tags of a packet

The statistics and the printers choose the members of the two unions by the protocol
tags of a packet. However the layer walk ends, the tags agree with each other, with
the ethertype and with the verdict.
-/
namespace Netscope.LayerTags
open ByteString Layers

/-- The ethertype that announces a network protocol. -/
def matchingEthertype : Proto → Option UInt16
  | .ipv4 => some ethertypeIpv4
  | .ipv6 => some ethertypeIpv6
  | .arp => some ethertypeArp
  | _ => none

/-- One of the ports of the decoded transport header is 53. -/
def HasDnsPort (pkt : Packet) : Prop :=
  (pkt.transportProto = .tcp ∧ (pkt.transport.getTcp.sourcePort = 53 ∨ pkt.transport.getTcp.destinationPort = 53)) ∨
    (pkt.transportProto = .udp ∧ (pkt.transport.getUdp.sourcePort = 53 ∨ pkt.transport.getUdp.destinationPort = 53))

/-- The tags, flags and counts of a packet are consistent. -/
structure TagsConsistent (pkt : Packet) : Prop where
  networkProto : pkt.networkProto ∈ [.unknown,.arp,.ipv4,.ipv6]
  transportProto : pkt.transportProto ∈ [.unknown,.tcp,.udp,.icmp,.icmpv6]
  network : pkt.networkProto ≠ .unknown →
    pkt.hasEth = true ∧ matchingEthertype pkt.networkProto = some pkt.eth.ethertype
  transport : pkt.transportProto ≠ .unknown → pkt.networkProto = .ipv4 ∨ pkt.networkProto = .ipv6
  dns : pkt.hasDns = true → HasDnsPort pkt ∧
    pkt.dns.decodedQuestionCount = min pkt.dns.questionCount.toNat 4 ∧
    pkt.dns.decodedAnswerCount = min pkt.dns.answerCount.toNat 12
  malformedReason : pkt.malformed = true ↔ pkt.malformedReason ≠ none
  malformed : pkt.malformed = true → pkt.transportProto = .unknown ∧ pkt.hasDns = false
  link : pkt.linkType = .ethernet → pkt.hasEth = false → pkt.malformed = true

/-! ## The counts of a message -/

section Counts
variable {data : Bytes}

theorem parseQuestions_length {remaining i offset : ℕ} {r : List DnsQuestion × ℕ}
    (h : parseQuestions data remaining i offset = .ok r) : r.1.length = min remaining (dnsMaxQuestions - i) := by
  induction remaining generalizing i offset r with
  | zero =>
    obtain rfl := Except.ok.inj h
    simp
  | succ remaining ih =>
    obtain ⟨q,stop,rest,_,hrest,rfl⟩ := parseQuestions_ok h
    have hlen := ih hrest
    dsimp only
    split
    · rw [List.length_cons, hlen]
      omega
    · rw [hlen]
      omega

theorem parseAnswers_length {remaining offset : ℕ} {as : List DnsRecord}
    (h : parseAnswers data remaining offset = .ok as) : as.length = remaining := by
  induction remaining generalizing offset as with
  | zero =>
    obtain rfl := Except.ok.inj h
    rfl
  | succ remaining ih =>
    obtain ⟨a,stop,rest,_,hrest,rfl⟩ := parseAnswers_ok h
    rw [List.length_cons, ih hrest]

/-- An accepted message has as many entries as its counts and its arrays allow. -/
theorem nsParseDns_counts {info : DnsInfo} (h : nsParseDns data = .ok info) :
    info.decodedQuestionCount = min info.questionCount.toNat 4 ∧
      info.decodedAnswerCount = min info.answerCount.toNat 12 := by
  obtain ⟨_,questions,offset,answers,hq,ha,rfl⟩ := nsParseDns_ok_iff.mp h
  exact ⟨parseQuestions_length hq,parseAnswers_length ha⟩

end Counts

/-! ## Before the transport layer -/

/-- A packet whose layers up to the network layer are decoded, and nothing else. -/
structure Pending (pkt : Packet) : Prop where
  hasEth : pkt.hasEth = true
  networkProto : pkt.networkProto ∈ [.unknown,.arp,.ipv4,.ipv6]
  ethertype : pkt.networkProto ≠ .unknown → matchingEthertype pkt.networkProto = some pkt.eth.ethertype
  transportProto : pkt.transportProto = .unknown
  hasDns : pkt.hasDns = false
  malformed : pkt.malformed = false
  malformedReason : pkt.malformedReason = none

section Steps
variable {p : Packet}

theorem Pending.setPayload (h : Pending p) (n k : ℕ) : Pending (nsPacketSetPayload p n k) := by
  rw [nsPacketSetPayload_eq]
  exact ⟨h.hasEth,h.networkProto,h.ethertype,h.transportProto,h.hasDns,h.malformed,h.malformedReason⟩

theorem Pending.setNet (h : Pending p) (net : NetUnion) (proto : Proto) (hp : proto ∈ [Proto.unknown,.arp,.ipv4,.ipv6])
    (ht : matchingEthertype proto = some p.eth.ethertype) : Pending { p with net := net, networkProto := proto } :=
  ⟨h.hasEth,hp,fun _ => ht,h.transportProto,h.hasDns,h.malformed,h.malformedReason⟩

/-- The walk may stop here. -/
theorem Pending.consistent (h : Pending p) : TagsConsistent p where
  networkProto := h.networkProto
  transportProto := by simp [h.transportProto]
  network hn := ⟨h.hasEth,h.ethertype hn⟩
  transport ht := absurd h.transportProto ht
  dns hd := by simp [h.hasDns] at hd
  malformedReason := by simp [h.malformed, h.malformedReason]
  malformed hm := by simp [h.malformed] at hm
  link _ he := by simp [h.hasEth] at he

/-- The walk may give up here. -/
theorem Pending.markMalformed (h : Pending p) (reason : MalformedReason) :
    TagsConsistent (nsPacketMarkMalformed p reason) where
  networkProto := h.networkProto
  transportProto := by simp [nsPacketMarkMalformed, h.transportProto]
  network hn := ⟨h.hasEth,h.ethertype hn⟩
  transport ht := absurd h.transportProto ht
  dns hd := absurd (hd.symm.trans h.hasDns) (by decide)
  malformedReason := by simp [nsPacketMarkMalformed]
  malformed _ := ⟨h.transportProto,h.hasDns⟩
  link _ _ := rfl

theorem TagsConsistent.setPayload (h : TagsConsistent p) (n k : ℕ) : TagsConsistent (nsPacketSetPayload p n k) := by
  rw [nsPacketSetPayload_eq]
  exact ⟨h.networkProto,h.transportProto,h.network,h.transport,h.dns,h.malformedReason,h.malformed,h.link⟩

/-- A decoded transport header. -/
theorem Pending.setTransport (h : Pending p) (hip : p.networkProto = .ipv4 ∨ p.networkProto = .ipv6)
    (transport : TransportUnion) (proto : Proto) (hp : proto ∈ [Proto.unknown,.tcp,.udp,.icmp,.icmpv6]) :
    TagsConsistent { p with transport := transport, transportProto := proto } where
  networkProto := h.networkProto
  transportProto := hp
  network hn := ⟨h.hasEth,h.ethertype hn⟩
  transport _ := hip
  dns hd := absurd (hd.symm.trans h.hasDns) (by decide)
  malformedReason := by simp [h.malformed, h.malformedReason]
  malformed hm := absurd (hm.symm.trans h.malformed) (by decide)
  link _ he := absurd (he.symm.trans h.hasEth) (by decide)

/-- A message under a port header of a well-formed packet. -/
theorem TagsConsistent.dnsIfApplicable (h : TagsConsistent p) (hm : p.malformed = false) {srcPort dstPort : UInt16}
    (hport : srcPort = 53 ∨ dstPort = 53 → HasDnsPort p) (data : Bytes) (offset : ℕ) :
    TagsConsistent (nsPacketParseDnsIfApplicable p data offset srcPort dstPort) := by
  rcases dnsIfApplicable_cases p data offset srcPort dstPort with hsame | ⟨info,h53,_,hok,heq⟩
  · rw [hsame]
    exact h
  · rw [heq]
    refine ⟨h.networkProto,h.transportProto,h.network,h.transport,?_,h.malformedReason,?_,h.link⟩
    · intro _
      exact ⟨hport h53,nsParseDns_counts hok⟩
    · intro hmal
      rw [hm] at hmal
      cases hmal

/-- The transport step ends in consistent tags. -/
theorem Pending.transport (h : Pending p) (hip : p.networkProto = .ipv4 ∨ p.networkProto = .ipv6) (data : Bytes)
    (offset : ℕ) (proto : UInt8) : TagsConsistent (nsPacketParseTransport p data offset proto) := by
  have houtcome := nsPacketParseTransport_outcome p data offset proto
  generalize nsPacketParseTransport p data offset proto = q at houtcome ⊢
  cases houtcome with
  | @tcp info headerLen _ =>
    have hset := (h.setTransport hip (.tcp info) .tcp (by decide)).setPayload data.length (offset + headerLen)
    rw [nsPacketSetPayload_eq] at hset ⊢
    apply hset.dnsIfApplicable h.malformed
    intro h53
    exact .inl ⟨rfl,h53⟩
  | @udp info _ =>
    have hset := (h.setTransport hip (.udp info) .udp (by decide)).setPayload data.length (offset + 8)
    rw [nsPacketSetPayload_eq] at hset ⊢
    apply hset.dnsIfApplicable h.malformed
    intro h53
    exact .inr ⟨rfl,h53⟩
  | @icmp info _ => exact h.setTransport hip (.icmp info) .icmp (by decide)
  | @icmpv6 info _ => exact h.setTransport hip (.icmpv6 info) .icmpv6 (by decide)
  | rejected _ reason => exact h.markMalformed reason
  | unsupported => exact h.consistent

end Steps

/-! ## The walk -/

theorem linkPacket_pending (c : Capture) (eth : EthInfo) (offset : ℕ) : Pending (linkPacket c eth offset) := by
  unfold linkPacket
  rw [nsPacketSetPayload_eq]
  exact ⟨rfl,by simp [initialPacket],fun hn => absurd rfl hn,rfl,rfl,rfl,rfl⟩

section Untouched
variable {p : Packet} (hn : p.networkProto = .unknown) (ht : p.transportProto = .unknown) (hd : p.hasDns = false)
include hn ht hd

/-- A packet without decoded layers, with any verdict. -/
theorem consistent_of_untouched (hm : p.malformed = true ↔ p.malformedReason ≠ none)
    (hl : p.linkType = .ethernet → p.hasEth = false → p.malformed = true) : TagsConsistent p where
  networkProto := by simp [hn]
  transportProto := by simp [ht]
  network h := absurd hn h
  transport h := absurd ht h
  dns h := by simp [hd] at h
  malformedReason := hm
  malformed _ := ⟨ht,hd⟩
  link := hl

end Untouched

theorem walkRule_tagsConsistent (c : Capture) : WalkRule c Pending TagsConsistent where
  unknown hl := by
    refine consistent_of_untouched rfl rfl rfl ?_ (fun he => absurd he hl)
    simp [initialPacket]
  truncated := consistent_of_untouched rfl rfl rfl (by simp [nsPacketMarkMalformed]) (fun _ _ => rfl)
  link := linkPacket_pending c
  setPayload n k h := h.setPayload n k
  arp info h htype := h.setNet (.arp info) .arp (by decide) (by rw [htype]; rfl)
  ipv4 info h htype := h.setNet (.ipv4 info) .ipv4 (by decide) (by rw [htype]; rfl)
  ipv6 info h htype := h.setNet (.ipv6 info) .ipv6 (by decide) (by rw [htype]; rfl)
  stop h := h.consistent
  reject reason h := h.markMalformed reason
  transport offset proto h hip := h.transport hip c.data offset proto

/-- The tags of every parsed packet are consistent. -/
theorem nsPacketParse_tagsConsistent (data : Bytes) (originalLength : ℕ) (timestamp : Timestamp) (number : UInt64)
    (linkType : LinkType) : TagsConsistent (nsPacketParse data originalLength timestamp number linkType) := by
  exact (walkRule_tagsConsistent ⟨data,originalLength,timestamp,number,linkType⟩).packet

end Netscope.LayerTags
