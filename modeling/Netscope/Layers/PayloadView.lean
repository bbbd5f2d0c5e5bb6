import Netscope.Layers.ExtensionChain
import Netscope.Layers.WalkRule

/-! # The payload view

Along one parse the payload is set up to four times. The last value is read off the
decoded layers here: it starts behind the headers that the packet reports.
-/
namespace Netscope.PayloadView
open ByteString Layers ExtensionChain

/-! ## Where the payload starts -/

/-- The total length of the extension headers from `start` on, as long as they lie
inside the data, and of at most `budget` of them. -/
def extensionsLength (data : Bytes) : ℕ → ℕ → UInt8 → ℕ
  | 0, _, _ => 0
  | budget + 1, start, nextHeader =>
    match extensionLength data start nextHeader with
    | none => 0
    | some len =>
      if start + len ≤ data.length then len + extensionsLength data budget (start + len) (u8 data start) else 0

def linkLength (eth : EthInfo) : ℕ := if eth.hasVlan then 18 else 14

/-- The network header and, for IPv6, its extension headers behind a link header of `start` bytes. -/
def networkLength (data : Bytes) (start : ℕ) (pkt : Packet) : ℕ :=
  match pkt.networkProto with
  | .ipv4 => pkt.net.getIpv4.ihl.toNat * 4
  | .ipv6 => 40 + extensionsLength data 8 (start + 40) pkt.net.getIpv6.nextHeader
  | _ => 0

def transportLength (pkt : Packet) : ℕ :=
  match pkt.transportProto with
  | .tcp => pkt.transport.getTcp.headerLength
  | .udp => 8
  | _ => 0

/-- The length of all headers that the packet reports. -/
def headersLength (data : Bytes) (pkt : Packet) : ℕ :=
  if pkt.hasEth then linkLength pkt.eth + networkLength data (linkLength pkt.eth) pkt + transportLength pkt else 0

/-- The payload is the data from `k` on. -/
structure ViewAt (data : Bytes) (pkt : Packet) (k : ℕ) : Prop where
  payload : pkt.payload = some k
  payloadLength : pkt.payloadLength = data.length - k
  inside : k ≤ data.length

section Steps
variable {data : Bytes} {p : Packet} {k : ℕ}

theorem setPayload_view (h : k ≤ data.length) : ViewAt data (nsPacketSetPayload p data.length k) k := by
  rw [nsPacketSetPayload_eq, if_neg (by omega), if_neg (by omega)]
  exact ⟨rfl,rfl,h⟩

theorem ViewAt.markMalformed (h : ViewAt data p k) (reason : MalformedReason) :
    ViewAt data (nsPacketMarkMalformed p reason) k := ⟨h.payload,h.payloadLength,h.inside⟩

theorem ViewAt.dnsIfApplicable (h : ViewAt data p k) (offset : ℕ) (srcPort dstPort : UInt16) :
    ViewAt data (nsPacketParseDnsIfApplicable p data offset srcPort dstPort) k := by
  rcases dnsIfApplicable_cases p data offset srcPort dstPort with hsame | ⟨info,_,_,_,heq⟩
  · rw [hsame]
    exact h
  · rw [heq]
    exact ⟨h.payload,h.payloadLength,h.inside⟩

/-- What follows an accepted port header leaves the payload behind that header. -/
theorem application_view (h : k ≤ data.length) (srcPort dstPort : UInt16) :
    ViewAt data (nsPacketParseDnsIfApplicable (nsPacketSetPayload p data.length k) data k srcPort dstPort) k :=
  (setPayload_view h).dnsIfApplicable k srcPort dstPort

theorem transportLength_unknown (h : p.transportProto = .unknown) : transportLength p = 0 := by rw [transportLength, h]

/-- A port header moves the payload behind itself; every other end of the transport step leaves it. -/
theorem transport_view (h : ViewAt data p k) (ht : p.transportProto = .unknown) (proto : UInt8) :
    ViewAt data (nsPacketParseTransport p data k proto) (k + transportLength (nsPacketParseTransport p data k proto)) := by
  have hdrop : (data.drop k).length = data.length - k := List.length_drop
  have hinside := h.inside
  have houtcome := nsPacketParseTransport_outcome p data k proto
  generalize nsPacketParseTransport p data k proto = q at houtcome ⊢
  cases houtcome with
  | @tcp info headerLen hm =>
    have hle := nsParseTcp_headerLen_le hm
    obtain ⟨_,_,_,heq⟩ := nsParseTcp_eq_ok_iff.mp hm
    have hkeeps := setPayload_dns_keeps { p with transport := .tcp info, transportProto := .tcp } data (k + headerLen)
      info.sourcePort info.destinationPort
    have hlen : transportLength (nsPacketParseDnsIfApplicable
        (nsPacketSetPayload { p with transport := .tcp info, transportProto := .tcp } data.length (k + headerLen)) data
        (k + headerLen) info.sourcePort info.destinationPort) = headerLen := by
      rw [transportLength, hkeeps.transportProto, hkeeps.transport]
      obtain ⟨rfl,rfl⟩ := Prod.ext_iff.mp heq
      rfl
    rw [hlen]
    exact application_view (by omega) info.sourcePort info.destinationPort
  | @udp info hm =>
    obtain ⟨hle,_,_⟩ := nsParseUdp_eq_ok_iff.mp hm
    have hkeeps := setPayload_dns_keeps { p with transport := .udp info, transportProto := .udp } data (k + 8)
      info.sourcePort info.destinationPort
    have hlen : transportLength (nsPacketParseDnsIfApplicable
        (nsPacketSetPayload { p with transport := .udp info, transportProto := .udp } data.length (k + 8)) data
        (k + 8) info.sourcePort info.destinationPort) = 8 := by
      rw [transportLength, hkeeps.transportProto]
    rw [hlen]
    exact application_view (by omega) info.sourcePort info.destinationPort
  | icmp | icmpv6 => exact ⟨h.payload,h.payloadLength,h.inside⟩
  | rejected _ reason =>
    have hzero : transportLength (nsPacketMarkMalformed p reason) = 0 := transportLength_unknown ht
    rw [hzero]
    exact h.markMalformed reason
  | unsupported =>
    rw [transportLength_unknown ht]
    exact h

end Steps

/-! ## The network step -/

theorem skipExtensionHeaders_stop (data : Bytes) (budget start : ℕ) (nextHeader : UInt8) :
    (skipExtensionHeaders data budget start nextHeader).2.1 = start + extensionsLength data budget start nextHeader := by
  induction budget generalizing start nextHeader with
  | zero => rfl
  | succ budget ih =>
    cases hlen : extensionLength data start nextHeader with
    | none =>
      rw [skipExtensionHeaders_isUpper budget (extensionLength_eq_none.mp hlen), extensionsLength, hlen]
      rfl
    | some len =>
      rw [skipExtensionHeaders_step budget hlen, extensionsLength, hlen]
      dsimp only
      split
      · rw [ih, Nat.add_assoc]
      · rfl

theorem networkLength_eq {p q : Packet} (h : SameNetwork p q) (data : Bytes) (start : ℕ) :
    networkLength data start q = networkLength data start p := by
  rw [networkLength, networkLength, h.networkProto, h.net]

/-- The payload starts behind the network and port headers that the packet reports. -/
def BehindHeaders (data : Bytes) (k : ℕ) (q : Packet) : Prop :=
  ViewAt data q (k + networkLength data k q + transportLength q)

section Network
variable {data : Bytes} {p : Packet} {k : ℕ} (ht : p.transportProto = .unknown)
include ht

/-- A packet whose network header ends at `i`, and nothing further is decoded. -/
theorem setPayload_behindHeaders {i : ℕ} (hi : i ≤ data.length) (hlen : k + networkLength data k p = i) :
    BehindHeaders data k (nsPacketSetPayload p data.length i) := by
  have hset := setPayload_keeps p data.length i
  rw [BehindHeaders, networkLength_eq hset.toSameNetwork, hlen, transportLength_unknown (hset.transportProto.trans ht)]
  exact setPayload_view hi

/-- The transport step behind a network header that ends at `i`. -/
theorem transport_behindHeaders {i : ℕ} (hi : i ≤ data.length) (hlen : k + networkLength data k p = i) (proto : UInt8) :
    BehindHeaders data k (nsPacketParseTransport (nsPacketSetPayload p data.length i) data i proto) := by
  have hset := setPayload_keeps p data.length i
  have hsame := nsPacketParseTransport_sameNetwork (nsPacketSetPayload p data.length i) data i proto
  rw [BehindHeaders, networkLength_eq hsame, networkLength_eq hset.toSameNetwork, hlen]
  exact transport_view (setPayload_view hi) (hset.transportProto.trans ht) proto

variable (hn : p.networkProto = .unknown)
include hn

omit ht in
theorem networkLength_unknown : networkLength data k p = 0 := by rw [networkLength, hn]

variable (h : ViewAt data p k)
include h

theorem view_behindHeaders : BehindHeaders data k p := by
  rw [BehindHeaders, networkLength_unknown hn, transportLength_unknown ht]
  exact h

theorem reject_behindHeaders (reason : MalformedReason) : BehindHeaders data k (nsPacketMarkMalformed p reason) :=
  view_behindHeaders (p := nsPacketMarkMalformed p reason) ht hn (h.markMalformed reason)

theorem nsPacketParseIpv4_behindHeaders : BehindHeaders data k (nsPacketParseIpv4 p data k) := by
  have hdrop : (data.drop k).length = data.length - k := List.length_drop
  have hinside := h.inside
  cases hm : nsParseIpv4 (data.drop k) with
  | error e =>
    unfold nsPacketParseIpv4
    rw [hm]
    cases e with
    | truncated => exact reject_behindHeaders ht hn h .ipv4Truncated
    | malformed | unsupported => exact reject_behindHeaders ht hn h .ipv4Inconsistent
  | ok m =>
    obtain ⟨info,headerLen⟩ := m
    have hle := nsParseIpv4_headerLen_le hm
    obtain ⟨_,_,_,_,_,heq⟩ := nsParseIpv4_eq_ok_iff.mp hm
    have hlen : k + networkLength data k { p with net := .ipv4 info, networkProto := .ipv4 } = k + headerLen := by
      obtain ⟨rfl,rfl⟩ := Prod.ext_iff.mp heq
      rfl
    cases hf : info.isFragment && !info.isInitialFragment with
    | true =>
      rw [nsPacketParseIpv4_stopped p hm hf]
      refine setPayload_behindHeaders ?_ ?_ hlen
      · exact ht
      · omega
    | false =>
      rw [nsPacketParseIpv4_continued p hm hf]
      refine transport_behindHeaders ?_ ?_ hlen info.protocol
      · exact ht
      · omega

theorem nsPacketParseIpv6_behindHeaders : BehindHeaders data k (nsPacketParseIpv6 p data k) := by
  have hdrop : (data.drop k).length = data.length - k := List.length_drop
  have hinside := h.inside
  cases hm : nsParseIpv6 (data.drop k) with
  | error e =>
    unfold nsPacketParseIpv6
    rw [hm]
    cases e with
    | truncated => exact reject_behindHeaders ht hn h .ipv6Truncated
    | malformed | unsupported => exact reject_behindHeaders ht hn h .ipv6Inconsistent
  | ok m =>
    obtain ⟨info,headerLen⟩ := m
    have hle := nsParseIpv6_headerLen_le hm
    obtain ⟨_,_,heq⟩ := nsParseIpv6_eq_ok_iff.mp hm
    obtain rfl : headerLen = 40 := congrArg Prod.snd heq
    -- the walk stops at the end of the extension headers, whatever its verdict
    have hstop := skipExtensionHeaders_stop data 8 (k + 40) info.nextHeader
    have hext := (skipExtensionHeaders_walked data 8 (k + 40) info.nextHeader).stop_le (by omega)
    rcases hs : nsIpv6SkipExtensionHeaders data (k + 40) info.nextHeader with ⟨accepted,extOffset,nextHeader⟩
    rw [show skipExtensionHeaders data 8 (k + 40) info.nextHeader = (accepted,extOffset,nextHeader) from hs] at hstop hext
    have hlen : k + networkLength data k { p with net := .ipv6 info, networkProto := .ipv6 } = extOffset := by
      change k + (40 + extensionsLength data 8 (k + 40) info.nextHeader) = extOffset
      rw [← Nat.add_assoc]
      exact hstop.symm
    cases accepted with
    | false =>
      rw [nsPacketParseIpv6_rejected p hm hs]
      refine setPayload_behindHeaders ?_ ?_ hlen
      · exact ht
      · exact hext
    | true =>
      rw [nsPacketParseIpv6_accepted p hm hs]
      refine transport_behindHeaders ?_ ?_ hlen nextHeader
      · exact ht
      · exact hext

theorem nsPacketParseArp_behindHeaders : BehindHeaders data k (nsPacketParseArp p data k) := by
  unfold nsPacketParseArp
  cases nsParseArp (data.drop k) with
  | ok info =>
    refine setPayload_behindHeaders ?_ ?_ ?_
    · exact ht
    · exact h.inside
    · rfl
  | error e =>
    have hlen : k + networkLength data k p = k := by rw [networkLength_unknown hn, Nat.add_zero]
    cases e with
    | truncated => exact setPayload_behindHeaders (p := nsPacketMarkMalformed p .arpTruncated) ht h.inside hlen
    | malformed | unsupported => exact setPayload_behindHeaders ht h.inside hlen

theorem nsPacketParseNetwork_behindHeaders (ethertype : UInt16) :
    BehindHeaders data k (nsPacketParseNetwork p data k ethertype) := by
  unfold nsPacketParseNetwork
  split
  · exact nsPacketParseIpv4_behindHeaders ht hn h
  · split
    · exact nsPacketParseIpv6_behindHeaders ht hn h
    · split
      · exact nsPacketParseArp_behindHeaders ht hn h
      · exact view_behindHeaders ht hn h

end Network

theorem parseNetwork_sameLink (p : Packet) (data : Bytes) (offset : ℕ) (ethertype : UInt16) :
    SameLink p (nsPacketParseNetwork p data offset ethertype) := by
  unfold nsPacketParseNetwork
  split
  · exact nsPacketParseIpv4_sameLink p data offset
  · split
    · exact nsPacketParseIpv6_sameLink p data offset
    · split
      · exact nsPacketParseArp_sameLink p data offset
      · exact ⟨rfl,rfl⟩

/-- The link layer of a packet is what the Ethernet parser returns. -/
theorem packet_link {c : Capture} {eth : EthInfo} {offset : ℕ} (hl : c.linkType = .ethernet)
    (hm : nsParseEthernet c.data = .ok (eth,offset)) : c.packet.hasEth = true ∧ c.packet.eth = eth := by
  have hset := setPayload_keeps { initialPacket c.data c.originalLength c.timestamp c.number c.linkType with
    eth := eth, hasEth := true } c.data.length offset
  obtain ⟨hasEth,heth⟩ := parseNetwork_sameLink (linkPacket c eth offset) c.data offset eth.ethertype
  rw [packet_of_ethernet hl hm]
  exact ⟨hasEth.trans hset.hasEth,heth.trans hset.eth⟩

/-- The payload of every parsed packet starts behind the headers that it reports. -/
theorem packet_view (c : Capture) : ViewAt c.data c.packet (headersLength c.data c.packet) := by
  by_cases hl : c.linkType = .ethernet
  · cases hm : nsParseEthernet c.data with
    | error e =>
      rw [packet_of_error hl hm]
      exact ⟨rfl,rfl,Nat.zero_le _⟩
    | ok m =>
      obtain ⟨eth,offset⟩ := m
      have hoffset : offset = linkLength eth := by
        rcases nsParseEthernet_eq_ok_iff.mp hm with ⟨_,_,heq⟩ | ⟨_,_,heq⟩
        · obtain ⟨rfl,rfl⟩ := Prod.ext_iff.mp heq
          rfl
        · obtain ⟨rfl,rfl⟩ := Prod.ext_iff.mp heq
          rfl
      have hset := setPayload_keeps { initialPacket c.data c.originalLength c.timestamp c.number c.linkType with
        eth := eth, hasEth := true } c.data.length offset
      obtain ⟨hasEth,heth⟩ := packet_link hl hm
      have hview := nsPacketParseNetwork_behindHeaders (p := linkPacket c eth offset) hset.transportProto hset.networkProto
        (setPayload_view (nsParseEthernet_headerLen_le hm)) eth.ethertype
      rw [headersLength, if_pos hasEth, heth, ← hoffset, packet_of_ethernet hl hm]
      exact hview
  · rw [packet_of_unknown hl]
    exact ⟨rfl,rfl,Nat.zero_le _⟩

/-! ## The branches for an offset past the capture

The walk over two exchangeable steps. With the steps of the model it is the parser; the
strict steps give nothing where the source guards against an offset past the capture.
-/

structure Steps (m : Type → Type) where
  setPayload (out : Packet) (length offset : ℕ) : m Packet
  parseDnsIfApplicable (out : Packet) (data : Bytes) (offset : ℕ) (srcPort dstPort : UInt16) : m Packet

section WalkWith
variable {m : Type → Type} [Monad m] (steps : Steps m) (out : Packet) (data : Bytes) (offset : ℕ)

def parseTransportWith (proto : UInt8) : m Packet :=
  if proto = ipProtoTcp then
    match nsParseTcp (data.drop offset) with
    | .ok (info,headerLen) => do
      let out ← steps.setPayload { out with transport := .tcp info, transportProto := .tcp } data.length (offset + headerLen)
      steps.parseDnsIfApplicable out data (offset + headerLen) info.sourcePort info.destinationPort
    | .error .truncated => return nsPacketMarkMalformed out .tcpTruncated
    | .error _ => return nsPacketMarkMalformed out .tcpInconsistent
  else if proto = ipProtoUdp then
    match nsParseUdp (data.drop offset) with
    | .ok info => do
      let out ← steps.setPayload { out with transport := .udp info, transportProto := .udp } data.length (offset + 8)
      steps.parseDnsIfApplicable out data (offset + 8) info.sourcePort info.destinationPort
    | .error .truncated => return nsPacketMarkMalformed out .udpTruncated
    | .error _ => return nsPacketMarkMalformed out .udpInconsistent
  else return nsPacketParseTransport out data offset proto

def parseIpv4With : m Packet :=
  match nsParseIpv4 (data.drop offset) with
  | .ok (info,headerLen) => do
    let out ← steps.setPayload { out with net := .ipv4 info, networkProto := .ipv4 } data.length (offset + headerLen)
    if info.isFragment && !info.isInitialFragment then return out
    parseTransportWith steps out data (offset + headerLen) info.protocol
  | .error _ => return nsPacketParseIpv4 out data offset

def parseIpv6With : m Packet :=
  match nsParseIpv6 (data.drop offset) with
  | .ok (info,headerLen) =>
    let out := { out with net := .ipv6 info, networkProto := .ipv6 }
    match nsIpv6SkipExtensionHeaders data (offset + headerLen) info.nextHeader with
    | (false,extOffset,_) => steps.setPayload (nsPacketMarkMalformed out .ipv6ChainInvalid) data.length extOffset
    | (true,extOffset,nextHeader) => do
      let out ← steps.setPayload out data.length extOffset
      parseTransportWith steps out data extOffset nextHeader
  | .error _ => return nsPacketParseIpv6 out data offset

def parseArpWith : m Packet :=
  steps.setPayload
    (match nsParseArp (data.drop offset) with
      | .ok info => { out with net := .arp info, networkProto := .arp }
      | .error .truncated => nsPacketMarkMalformed out .arpTruncated
      | .error _ => out) data.length offset

def parseNetworkWith (ethertype : UInt16) : m Packet :=
  if ethertype = ethertypeIpv4 then parseIpv4With steps out data offset
  else if ethertype = ethertypeIpv6 then parseIpv6With steps out data offset
  else if ethertype = ethertypeArp then parseArpWith steps out data offset
  else return out

def parseWith (c : Capture) : m Packet :=
  let out := initialPacket c.data c.originalLength c.timestamp c.number c.linkType
  if c.linkType ≠ .ethernet then return out
  else
    match nsParseEthernet c.data with
    | .error _ => return nsPacketMarkMalformed out .ethernetTruncated
    | .ok (eth,offset) => do
      let out ← steps.setPayload { out with eth := eth, hasEth := true } c.data.length offset
      parseNetworkWith steps out c.data offset eth.ethertype

end WalkWith

def modelSteps : Steps Id := ⟨nsPacketSetPayload,nsPacketParseDnsIfApplicable⟩

/-- The steps without the two guarded branches. -/
def strictSteps : Steps Option where
  setPayload out length offset := if offset > length then none else some (nsPacketSetPayload out length offset)
  parseDnsIfApplicable out data offset srcPort dstPort :=
    if srcPort ≠ 53 ∧ dstPort ≠ 53 then some out
    else if offset > data.length then none
    else some (nsPacketParseDnsIfApplicable out data offset srcPort dstPort)

/-- The steps are those of the model at every offset inside the capture. -/
structure Steps.Agree {m : Type → Type} [Monad m] (steps : Steps m) : Prop where
  setPayload : ∀ out length offset, offset ≤ length →
    steps.setPayload out length offset = pure (nsPacketSetPayload out length offset)
  parseDnsIfApplicable : ∀ out data offset srcPort dstPort, offset ≤ data.length →
    steps.parseDnsIfApplicable out data offset srcPort dstPort =
      pure (nsPacketParseDnsIfApplicable out data offset srcPort dstPort)

theorem modelSteps_agree : modelSteps.Agree := ⟨fun _ _ _ _ => rfl,fun _ _ _ _ _ _ => rfl⟩

theorem strictSteps_agree : strictSteps.Agree where
  setPayload out length offset h := if_neg (by omega)
  parseDnsIfApplicable out data offset srcPort dstPort h := by
    unfold strictSteps
    dsimp only
    by_cases hport : srcPort ≠ 53 ∧ dstPort ≠ 53
    · rw [if_pos hport, nsPacketParseDnsIfApplicable, if_pos hport]
      rfl
    · rw [if_neg hport, if_neg (by omega)]
      rfl

section Agree
variable {m : Type → Type} [Monad m] [LawfulMonad m] {steps : Steps m} (hsteps : steps.Agree) {data : Bytes} (p : Packet)
  {k : ℕ}
include hsteps

theorem parseTransportWith_eq (h : k ≤ data.length) (proto : UInt8) :
    parseTransportWith steps p data k proto = pure (nsPacketParseTransport p data k proto) := by
  have hdrop : (data.drop k).length = data.length - k := List.length_drop
  unfold parseTransportWith
  split
  · rename_i htcp
    subst htcp
    unfold nsPacketParseTransport
    cases hm : nsParseTcp (data.drop k) with
    | ok r =>
      have hle := nsParseTcp_headerLen_le hm
      have hend : k + r.2 ≤ data.length := by omega
      dsimp only
      rw [hsteps.setPayload _ _ _ hend, pure_bind]
      exact hsteps.parseDnsIfApplicable _ _ _ r.1.sourcePort r.1.destinationPort hend
    | error e => cases e <;> rfl
  · split
    · rename_i htcp hudp
      subst hudp
      unfold nsPacketParseTransport
      cases hm : nsParseUdp (data.drop k) with
      | ok info =>
        obtain ⟨hle,_,_⟩ := nsParseUdp_eq_ok_iff.mp hm
        have hend : k + 8 ≤ data.length := by omega
        dsimp only
        rw [hsteps.setPayload _ _ _ hend, pure_bind]
        exact hsteps.parseDnsIfApplicable _ _ _ info.sourcePort info.destinationPort hend
      | error e => cases e <;> rfl
    · rfl

theorem parseIpv4With_eq (h : k ≤ data.length) : parseIpv4With steps p data k = pure (nsPacketParseIpv4 p data k) := by
  have hdrop : (data.drop k).length = data.length - k := List.length_drop
  unfold parseIpv4With
  cases hm : nsParseIpv4 (data.drop k) with
  | error e => rfl
  | ok r =>
    obtain ⟨info,headerLen⟩ := r
    have hle := nsParseIpv4_headerLen_le hm
    have hend : k + headerLen ≤ data.length := by omega
    dsimp only
    rw [hsteps.setPayload _ _ _ hend, pure_bind]
    cases hf : info.isFragment && !info.isInitialFragment with
    | true =>
      rw [nsPacketParseIpv4_stopped p hm hf]
      rfl
    | false =>
      rw [nsPacketParseIpv4_continued p hm hf]
      exact parseTransportWith_eq hsteps _ hend info.protocol

theorem parseIpv6With_eq (h : k ≤ data.length) : parseIpv6With steps p data k = pure (nsPacketParseIpv6 p data k) := by
  have hdrop : (data.drop k).length = data.length - k := List.length_drop
  unfold parseIpv6With
  cases hm : nsParseIpv6 (data.drop k) with
  | error e => rfl
  | ok r =>
    obtain ⟨info,headerLen⟩ := r
    have hle := nsParseIpv6_headerLen_le hm
    have hstop := (skipExtensionHeaders_walked data 8 (k + headerLen) info.nextHeader).stop_le (by omega)
    rcases hs : nsIpv6SkipExtensionHeaders data (k + headerLen) info.nextHeader with ⟨accepted,extOffset,nextHeader⟩
    have hend : extOffset ≤ data.length := by
      rw [show skipExtensionHeaders data 8 (k + headerLen) info.nextHeader = _ from hs] at hstop
      exact hstop
    dsimp only
    rw [hs]
    cases accepted with
    | false =>
      rw [nsPacketParseIpv6_rejected p hm hs]
      exact hsteps.setPayload _ _ _ hend
    | true =>
      rw [nsPacketParseIpv6_accepted p hm hs]
      dsimp only
      rw [hsteps.setPayload _ _ _ hend, pure_bind]
      exact parseTransportWith_eq hsteps _ hend nextHeader

theorem parseNetworkWith_eq (h : k ≤ data.length) (ethertype : UInt16) :
    parseNetworkWith steps p data k ethertype = pure (nsPacketParseNetwork p data k ethertype) := by
  unfold parseNetworkWith nsPacketParseNetwork
  split
  · exact parseIpv4With_eq hsteps p h
  · split
    · exact parseIpv6With_eq hsteps p h
    · split
      · exact hsteps.setPayload _ _ _ h
      · rfl

/-- The walk is the parser, since no offset ever passes the end of the capture. -/
theorem parseWith_eq (c : Capture) : parseWith steps c = pure c.packet := by
  unfold parseWith
  by_cases hl : c.linkType = .ethernet
  · rw [if_neg (not_not.mpr hl)]
    cases hm : nsParseEthernet c.data with
    | error e =>
      rw [packet_of_error hl hm]
    | ok r =>
      obtain ⟨eth,offset⟩ := r
      have hle := nsParseEthernet_headerLen_le hm
      rw [packet_of_ethernet hl hm]
      dsimp only
      rw [hsteps.setPayload _ _ _ hle, pure_bind]
      exact parseNetworkWith_eq hsteps _ hle eth.ethertype
  · rw [if_pos hl, packet_of_unknown hl]

end Agree

/-- The payload starts behind the decoded headers, and the branches for an offset past the
capture are never taken. -/
theorem nsPacketParse_payload (c : Capture) :
    ViewAt c.data c.packet (headersLength c.data c.packet) ∧
      parseWith modelSteps c = c.packet ∧ parseWith strictSteps c = some c.packet :=
  ⟨packet_view c,parseWith_eq modelSteps_agree c,parseWith_eq strictSteps_agree c⟩

/-! ## The captured bytes -/

/-- A packet records the bytes of its capture and their number. -/
def Records (c : Capture) (p : Packet) : Prop := p.rawData = c.data ∧ p.capturedLength = c.data.length

theorem Records.application {c : Capture} {p : Packet} (h : Records c p) (data : Bytes) (offset : ℕ)
    (srcPort dstPort : UInt16) :
    Records c (nsPacketParseDnsIfApplicable (nsPacketSetPayload p data.length offset) data offset srcPort dstPort) := by
  have hset : Records c (nsPacketSetPayload p data.length offset) := by
    rw [nsPacketSetPayload_eq]
    exact h
  rcases dnsIfApplicable_cases (nsPacketSetPayload p data.length offset) data offset srcPort dstPort with
    hsame | ⟨_,_,_,_,heq⟩
  · rw [hsame]
    exact hset
  · rw [heq]
    exact hset

theorem walkRule_records (c : Capture) : WalkRule c (Records c) (Records c) where
  unknown _ := ⟨rfl,rfl⟩
  truncated := ⟨rfl,rfl⟩
  link eth offset := by
    rw [linkPacket, nsPacketSetPayload_eq]
    exact ⟨rfl,rfl⟩
  setPayload n k h := by
    rw [nsPacketSetPayload_eq]
    exact h
  arp _ h _ := h
  ipv4 _ h _ := h
  ipv6 _ h _ := h
  stop h := h
  reject _ h := h
  transport {p} offset proto h _ := by
    have houtcome := nsPacketParseTransport_outcome p c.data offset proto
    generalize nsPacketParseTransport p c.data offset proto = q at houtcome ⊢
    cases houtcome with
    | tcp | udp =>
      apply Records.application
      exact h
    | icmp | icmpv6 | rejected | unsupported => exact h

theorem packet_rawData (c : Capture) : c.packet.rawData = c.data := (walkRule_records c).packet.1

theorem packet_capturedLength (c : Capture) : c.packet.capturedLength = c.data.length := (walkRule_records c).packet.2

end Netscope.PayloadView
