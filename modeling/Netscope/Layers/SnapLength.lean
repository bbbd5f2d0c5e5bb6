import Netscope.Layers.LayerFrames

/-! # Capturing more bytes

A parser is stable when only its verdict `truncated` can change as more bytes are
captured. Every header parser is stable, and so a layer decoded from a short
capture is decoded alike from a longer one.
-/
namespace Netscope.SnapLength
open ByteString Layers

/-- Only the verdict `truncated` depends on how many bytes were captured. -/
def Stable {α : Type} (parse : Bytes → Parsed α) : Prop :=
  ∀ {a b : Bytes}, a <+: b → parse a ≠ .error .truncated → parse b = parse a

section Fields
variable {a b : Bytes} (h : a <+: b)
include h

theorem ipv4Fields_stable (h20 : 20 ≤ a.length) : ipv4Fields b = ipv4Fields a := by
  simp (disch := omega) only [ipv4Fields, u8_stable h, u16_stable h, slice_stable h]

theorem ipv6Fields_stable (h40 : 40 ≤ a.length) : ipv6Fields b = ipv6Fields a := by
  simp (disch := omega) only [ipv6Fields, u8_stable h, u16_stable h, u32_stable h, slice_stable h]

theorem tcpFields_stable (h20 : 20 ≤ a.length) : tcpFields b = tcpFields a := by
  simp (disch := omega) only [tcpFields, u8_stable h, u16_stable h, u32_stable h]

end Fields

theorem nsParseEthernet_stable : Stable nsParseEthernet := by
  intro a b h hne
  have hlen := h.length_le
  unfold nsParseEthernet at hne ⊢
  simp only [nsBoundsCheck_eq, Nat.zero_add] at hne ⊢
  by_cases h14 : 14 ≤ a.length
  · rw [u16_stable h (show 12 + 2 ≤ a.length by omega)]
    by_cases hv : u16 a 12 = ethertypeVlan
    · by_cases h18 : 18 ≤ a.length
      · simp (disch := omega) only [u16_stable h, slice_stable h, h14, h18, h14.trans hlen, h18.trans hlen, decide_true]
      · simp [h14, hv, h18] at hne
    · simp (disch := omega) only [slice_stable h, h14, h14.trans hlen, decide_true, hv, ↓reduceIte]
  · simp [h14] at hne

theorem nsParseArp_stable : Stable nsParseArp := by
  intro a b h hne
  have hlen := h.length_le
  unfold nsParseArp at hne ⊢
  simp only [nsBoundsCheck_eq, Nat.zero_add] at hne ⊢
  by_cases h8 : 8 ≤ a.length
  · simp (disch := omega) only [u8_stable h, u16_stable h, h8, h8.trans hlen, decide_true, Bool.not_true, Bool.false_eq_true,
      ↓reduceIte] at hne ⊢
    split
    · rfl
    · rename_i hf
      rw [if_neg hf] at hne
      simp only [ne_eq, not_or, not_not] at hf
      obtain ⟨_,_,h4,h5⟩ := hf
      have hbody : 8 + (2 * (u8 a 4).toNat + 2 * (u8 a 5).toNat) = 28 := by rw [h4, h5]; rfl
      rw [hbody] at hne ⊢
      by_cases h28 : 28 ≤ a.length
      · simp (disch := omega) only [slice_stable h, h28, h28.trans hlen]
      · simp [h28] at hne
  · simp [h8] at hne

theorem nsParseIpv4_stable : Stable nsParseIpv4 := by
  intro a b h hne
  have hlen := h.length_le
  unfold nsParseIpv4 at hne ⊢
  simp only [nsBoundsCheck_eq, Nat.zero_add] at hne ⊢
  by_cases h20 : 20 ≤ a.length
  · simp (disch := omega) only [u8_stable h, u16_stable h, ipv4Fields_stable h, h20, h20.trans hlen, decide_true,
      Bool.not_true, Bool.false_eq_true, ↓reduceIte] at hne ⊢
    split
    · rfl
    · split
      · rfl
      · rename_i hv hihl
        rw [if_neg hv, if_neg hihl] at hne
        generalize (u8 a 0 &&& 0x0F).toNat * 4 = hdrLen at hne ⊢
        by_cases hh : hdrLen ≤ a.length
        · simp only [hh, hh.trans hlen, decide_true]
        · simp [hh] at hne
  · simp [h20] at hne

theorem nsParseIpv6_stable : Stable nsParseIpv6 := by
  intro a b h hne
  have hlen := h.length_le
  unfold nsParseIpv6 at hne ⊢
  simp only [nsBoundsCheck_eq, Nat.zero_add] at hne ⊢
  by_cases h40 : 40 ≤ a.length
  · simp (disch := omega) only [u32_stable h, ipv6Fields_stable h, h40, h40.trans hlen, decide_true]
  · simp [h40] at hne

theorem nsParseTcp_stable : Stable nsParseTcp := by
  intro a b h hne
  have hlen := h.length_le
  unfold nsParseTcp at hne ⊢
  simp only [nsBoundsCheck_eq, Nat.zero_add] at hne ⊢
  by_cases h20 : 20 ≤ a.length
  · simp (disch := omega) only [u8_stable h, tcpFields_stable h, h20, h20.trans hlen, decide_true, Bool.not_true,
      Bool.false_eq_true, ↓reduceIte] at hne ⊢
    split
    · rfl
    · rename_i ho
      rw [if_neg ho] at hne
      generalize (u8 a 12 >>> 4).toNat * 4 = hdrLen at hne ⊢
      by_cases hh : hdrLen ≤ a.length
      · simp only [hh, hh.trans hlen, decide_true]
      · simp [hh] at hne
  · simp [h20] at hne

theorem nsParseUdp_stable : Stable nsParseUdp := by
  intro a b h hne
  have hlen := h.length_le
  unfold nsParseUdp at hne ⊢
  simp only [nsBoundsCheck_eq, Nat.zero_add] at hne ⊢
  by_cases h8 : 8 ≤ a.length
  · simp (disch := omega) only [u16_stable h, h8, h8.trans hlen, decide_true]
  · simp [h8] at hne

theorem parseEcho_stable (isEcho : UInt8 → Bool) : Stable (parseEcho isEcho) := by
  intro a b h hne
  have hlen := h.length_le
  unfold parseEcho at hne ⊢
  simp only [nsBoundsCheck_eq, Nat.zero_add] at hne ⊢
  by_cases h4 : 4 ≤ a.length
  · simp (disch := omega) only [u8_stable h, u16_stable h, h4, h4.trans hlen, decide_true, Bool.not_true,
      Bool.false_eq_true, ↓reduceIte] at hne ⊢
    split
    · rename_i he
      rw [if_pos he] at hne
      by_cases h8 : 8 ≤ a.length
      · simp (disch := omega) only [u16_stable h, h8, h8.trans hlen]
      · simp [h8] at hne
    · rfl
  · simp [h4] at hne

/-- An accepted extension-header chain is accepted alike. -/
theorem skipExtensionHeaders_stable {a b : Bytes} (h : a <+: b) {budget offset : ℕ} {nextHeader : UInt8}
    (hok : (skipExtensionHeaders a budget offset nextHeader).1 = true) :
    skipExtensionHeaders b budget offset nextHeader = skipExtensionHeaders a budget offset nextHeader := by
  have hlen := h.length_le
  induction budget generalizing offset nextHeader with
  | zero => rfl
  | succ budget ih =>
    rw [skipExtensionHeaders] at hok ⊢
    conv_rhs => rw [skipExtensionHeaders]
    simp only [nsBoundsCheck_eq, optionsHeaderLength] at hok ⊢
    by_cases hopt : isOptionsHeader nextHeader = true
    · simp only [hopt, ↓reduceIte] at hok ⊢
      by_cases h2 : offset + 2 ≤ a.length
      · simp (disch := omega) only [u8_stable h, h2, h2.trans hlen, decide_true, Bool.not_true, Bool.false_eq_true,
          ↓reduceIte] at hok ⊢
        generalize ((u8 a (offset + 1)).toNat + 1) * 8 = extLen at hok ⊢
        by_cases hext : offset + extLen ≤ a.length
        · simp only [hext, hext.trans hlen, decide_true, Bool.not_true, Bool.false_eq_true, ↓reduceIte] at hok ⊢
          exact ih hok
        · simp [hext] at hok
      · simp [h2] at hok
    · simp only [hopt, Bool.false_eq_true, ↓reduceIte] at hok ⊢
      by_cases hfrag : nextHeader = ipv6NextFragment
      · simp only [hfrag, ↓reduceIte] at hok ⊢
        by_cases h8 : offset + 8 ≤ a.length
        · have h1 : offset + 1 ≤ a.length := by omega
          simp (disch := omega) only [u8_stable h, h1, h8, h1.trans hlen, h8.trans hlen, decide_true, Bool.not_true,
            Bool.or_self, Bool.false_eq_true, ↓reduceIte] at hok ⊢
          exact ih hok
        · simp [h8] at hok
      · simp only [hfrag, ↓reduceIte]

/-! ## The layer walk -/

/-- The reasons that stand for a header parser returning `MALFORMED`. -/
def isInconsistent : MalformedReason → Bool
  | .ipv4Inconsistent | .ipv6Inconsistent | .tcpInconsistent | .udpInconsistent => true
  | _ => false

/-- Whatever `p` reports about its headers, `q` reports as well. -/
structure ReportedBy (p q : Packet) : Prop where
  eth : p.hasEth = true → q.hasEth = true ∧ q.eth = p.eth
  net : p.networkProto ≠ .unknown → q.networkProto = p.networkProto ∧ q.net = p.net
  transport : p.transportProto ≠ .unknown → q.transportProto = p.transportProto ∧ q.transport = p.transport
  wellFormed : p.malformed = false → q.malformed = false
  inconsistent : ∀ reason, p.malformed = true → p.malformedReason = some reason → isInconsistent reason = true →
    q.malformed = true ∧ q.malformedReason = some reason

end Netscope.SnapLength

namespace Netscope.Layers

theorem SameLayers.reportedBy {p q : Packet} (h : SameLayers p q) : SnapLength.ReportedBy p q where
  eth hp := ⟨h.hasEth.trans hp,h.eth⟩
  net _ := ⟨h.networkProto,h.net⟩
  transport _ := ⟨h.transportProto,h.transport⟩
  wellFormed hp := h.malformed.trans hp
  inconsistent _ hp hr _ := ⟨h.malformed.trans hp,h.malformedReason.trans hr⟩

end Netscope.Layers

namespace Netscope.SnapLength
open ByteString Layers

/-- A packet given up as truncated reports nothing beyond the layers decoded before. -/
theorem truncated_reportedBy {p q : Packet} (hlink : SameLink p q)
    (hnet : p.networkProto ≠ .unknown → q.networkProto = p.networkProto ∧ q.net = p.net)
    (ht : p.transportProto = .unknown) {reason : MalformedReason} (hr : isInconsistent reason = false) :
    ReportedBy (nsPacketMarkMalformed p reason) q where
  eth hp := ⟨hlink.1.trans hp,hlink.2⟩
  net := hnet
  transport hp := absurd ht hp
  wellFormed hp := nomatch hp
  inconsistent _ _ he hi := by
    obtain rfl := Option.some.inj he
    rw [hr] at hi
    cases hi

theorem setPayload_sameLayers {p q : Packet} (h : SameLayers p q) (m n k l : ℕ) :
    SameLayers (nsPacketSetPayload p m k) (nsPacketSetPayload q n l) :=
  (setPayload_keeps p m k).symm.trans (h.trans (setPayload_keeps q n l))

theorem markMalformed_sameLayers {p q : Packet} (h : SameLayers p q) (reason : MalformedReason) :
    SameLayers (nsPacketMarkMalformed p reason) (nsPacketMarkMalformed q reason) :=
  ⟨⟨h.hasEth,h.eth,h.networkProto,h.net⟩,h.transportProto,h.transport,rfl,rfl⟩

theorem dnsIfApplicable_sameLayers {p q : Packet} (h : SameLayers p q) (a b : Bytes) (k : ℕ) (srcPort dstPort : UInt16) :
    SameLayers (nsPacketParseDnsIfApplicable p a k srcPort dstPort) (nsPacketParseDnsIfApplicable q b k srcPort dstPort) :=
  (dnsIfApplicable_keeps p a k srcPort dstPort).symm.trans (h.trans (dnsIfApplicable_keeps q b k srcPort dstPort))

theorem setTransport_sameLayers {p q : Packet} (h : SameLayers p q) (proto : Proto) (transport : TransportUnion) :
    SameLayers { p with transport := transport, transportProto := proto }
      { q with transport := transport, transportProto := proto } :=
  ⟨⟨h.hasEth,h.eth,h.networkProto,h.net⟩,rfl,rfl,h.malformed,h.malformedReason⟩

theorem setNet_sameLayers {p q : Packet} (h : SameLayers p q) (proto : Proto) (net : NetUnion) :
    SameLayers { p with net := net, networkProto := proto } { q with net := net, networkProto := proto } :=
  ⟨⟨h.hasEth,h.eth,rfl,rfl⟩,h.transportProto,h.transport,h.malformed,h.malformedReason⟩

section Walk
variable {a b : Bytes} (h : a <+: b) {p q : Packet} (hpq : SameLayers p q) (ht : p.transportProto = .unknown)
include h hpq ht

omit h in
/-- A transport header cut short says nothing that more bytes could contradict. -/
theorem truncatedTransport_reportedBy (offset : ℕ) (proto : UInt8) {reason : MalformedReason}
    (hr : isInconsistent reason = false) :
    ReportedBy (nsPacketMarkMalformed p reason) (nsPacketParseTransport q b offset proto) := by
  have hq := nsPacketParseTransport_sameNetwork q b offset proto
  apply truncated_reportedBy ⟨hq.hasEth.trans hpq.hasEth,hq.eth.trans hpq.eth⟩ _ ht hr
  intro _
  exact ⟨hq.networkProto.trans hpq.networkProto,hq.net.trans hpq.net⟩

theorem parseTcp_reportedBy (offset : ℕ) :
    ReportedBy (nsPacketParseTransport p a offset ipProtoTcp) (nsPacketParseTransport q b offset ipProtoTcp) := by
  by_cases hm : nsParseTcp (a.drop offset) = .error .truncated
  · have hp : nsPacketParseTransport p a offset ipProtoTcp = nsPacketMarkMalformed p .tcpTruncated := by
      simp only [nsPacketParseTransport, ↓reduceIte, hm]
    rw [hp]
    exact truncatedTransport_reportedBy hpq ht offset ipProtoTcp rfl
  · unfold nsPacketParseTransport
    simp only [↓reduceIte, nsParseTcp_stable (drop_extends h offset) hm]
    apply SameLayers.reportedBy
    cases hm' : nsParseTcp (a.drop offset) with
    | ok m =>
      apply dnsIfApplicable_sameLayers
      exact setPayload_sameLayers (setTransport_sameLayers hpq .tcp (.tcp m.1)) _ _ _ _
    | error e =>
      cases e with
      | truncated => exact absurd hm' hm
      | malformed => exact markMalformed_sameLayers hpq .tcpInconsistent
      | unsupported => exact markMalformed_sameLayers hpq .tcpInconsistent

theorem parseUdp_reportedBy (offset : ℕ) :
    ReportedBy (nsPacketParseTransport p a offset ipProtoUdp) (nsPacketParseTransport q b offset ipProtoUdp) := by
  have htcp : ipProtoUdp ≠ ipProtoTcp := by decide
  by_cases hm : nsParseUdp (a.drop offset) = .error .truncated
  · have hp : nsPacketParseTransport p a offset ipProtoUdp = nsPacketMarkMalformed p .udpTruncated := by
      simp only [nsPacketParseTransport, htcp, ↓reduceIte, hm]
    rw [hp]
    exact truncatedTransport_reportedBy hpq ht offset ipProtoUdp rfl
  · unfold nsPacketParseTransport
    simp only [htcp, ↓reduceIte, nsParseUdp_stable (drop_extends h offset) hm]
    apply SameLayers.reportedBy
    cases hm' : nsParseUdp (a.drop offset) with
    | ok info =>
      apply dnsIfApplicable_sameLayers
      exact setPayload_sameLayers (setTransport_sameLayers hpq .udp (.udp info)) _ _ _ _
    | error e =>
      cases e with
      | truncated => exact absurd hm' hm
      | malformed => exact markMalformed_sameLayers hpq .udpInconsistent
      | unsupported => exact markMalformed_sameLayers hpq .udpInconsistent

theorem parseIcmp_reportedBy (offset : ℕ) :
    ReportedBy (nsPacketParseTransport p a offset ipProtoIcmp) (nsPacketParseTransport q b offset ipProtoIcmp) := by
  have htcp : ipProtoIcmp ≠ ipProtoTcp := by decide
  have hudp : ipProtoIcmp ≠ ipProtoUdp := by decide
  cases hm : nsParseIcmp (a.drop offset) with
  | error e =>
    have hp : nsPacketParseTransport p a offset ipProtoIcmp = nsPacketMarkMalformed p .icmpTruncated := by
      simp only [nsPacketParseTransport, htcp, hudp, ↓reduceIte, hm]
    rw [hp]
    exact truncatedTransport_reportedBy hpq ht offset ipProtoIcmp rfl
  | ok info =>
    have hm' : nsParseIcmp (b.drop offset) = .ok info :=
      (parseEcho_stable icmpIsEcho (drop_extends h offset) (fun he => nomatch hm.symm.trans he)).trans hm
    simp only [nsPacketParseTransport, htcp, hudp, ↓reduceIte, hm, hm']
    exact (setTransport_sameLayers hpq .icmp (.icmp info)).reportedBy

theorem parseIcmpv6_reportedBy (offset : ℕ) :
    ReportedBy (nsPacketParseTransport p a offset ipProtoIcmpv6) (nsPacketParseTransport q b offset ipProtoIcmpv6) := by
  have htcp : ipProtoIcmpv6 ≠ ipProtoTcp := by decide
  have hudp : ipProtoIcmpv6 ≠ ipProtoUdp := by decide
  have hicmp : ipProtoIcmpv6 ≠ ipProtoIcmp := by decide
  cases hm : nsParseIcmpv6 (a.drop offset) with
  | error e =>
    have hp : nsPacketParseTransport p a offset ipProtoIcmpv6 = nsPacketMarkMalformed p .icmpv6Truncated := by
      simp only [nsPacketParseTransport, htcp, hudp, hicmp, ↓reduceIte, hm]
    rw [hp]
    exact truncatedTransport_reportedBy hpq ht offset ipProtoIcmpv6 rfl
  | ok info =>
    have hm' : nsParseIcmpv6 (b.drop offset) = .ok info :=
      (parseEcho_stable icmpv6IsEcho (drop_extends h offset) (fun he => nomatch hm.symm.trans he)).trans hm
    simp only [nsPacketParseTransport, htcp, hudp, hicmp, ↓reduceIte, hm, hm']
    exact (setTransport_sameLayers hpq .icmpv6 (.icmpv6 info)).reportedBy

theorem nsPacketParseTransport_reportedBy (offset : ℕ) (proto : UInt8) :
    ReportedBy (nsPacketParseTransport p a offset proto) (nsPacketParseTransport q b offset proto) := by
  by_cases htcp : proto = ipProtoTcp
  · subst htcp
    exact parseTcp_reportedBy h hpq ht offset
  by_cases hudp : proto = ipProtoUdp
  · subst hudp
    exact parseUdp_reportedBy h hpq ht offset
  by_cases hicmp : proto = ipProtoIcmp
  · subst hicmp
    exact parseIcmp_reportedBy h hpq ht offset
  by_cases hicmpv6 : proto = ipProtoIcmpv6
  · subst hicmpv6
    exact parseIcmpv6_reportedBy h hpq ht offset
  · simp only [nsPacketParseTransport, htcp, hudp, hicmp, hicmpv6, ↓reduceIte]
    exact hpq.reportedBy

end Walk

section NetworkWalk
variable {a b : Bytes} (h : a <+: b) {p q : Packet} (hpq : SameLayers p q) (ht : p.transportProto = .unknown)
  (hn : p.networkProto = .unknown)
include h hpq ht hn

theorem nsPacketParseIpv4_reportedBy (offset : ℕ) :
    ReportedBy (nsPacketParseIpv4 p a offset) (nsPacketParseIpv4 q b offset) := by
  have hq := nsPacketParseIpv4_sameLink q b offset
  by_cases hm : nsParseIpv4 (a.drop offset) = .error .truncated
  · have hp : nsPacketParseIpv4 p a offset = nsPacketMarkMalformed p .ipv4Truncated := by
      simp only [nsPacketParseIpv4, hm]
    rw [hp]
    exact truncated_reportedBy ⟨hq.1.trans hpq.hasEth,hq.2.trans hpq.eth⟩ (fun h => absurd hn h) ht rfl
  · unfold nsPacketParseIpv4
    rw [nsParseIpv4_stable (drop_extends h offset) hm]
    cases hm' : nsParseIpv4 (a.drop offset) with
    | error e =>
      cases e with
      | truncated => exact absurd hm' hm
      | malformed => exact (markMalformed_sameLayers hpq .ipv4Inconsistent).reportedBy
      | unsupported => exact (markMalformed_sameLayers hpq .ipv4Inconsistent).reportedBy
    | ok m =>
      have hset := setPayload_sameLayers (setNet_sameLayers hpq .ipv4 (.ipv4 m.1)) a.length b.length (offset + m.2)
        (offset + m.2)
      dsimp only
      split
      · exact hset.reportedBy
      · exact nsPacketParseTransport_reportedBy h hset (by rw [nsPacketSetPayload_eq]; exact ht) (offset + m.2) m.1.protocol

theorem nsPacketParseIpv6_reportedBy (offset : ℕ) :
    ReportedBy (nsPacketParseIpv6 p a offset) (nsPacketParseIpv6 q b offset) := by
  have hq := nsPacketParseIpv6_sameLink q b offset
  by_cases hm : nsParseIpv6 (a.drop offset) = .error .truncated
  · have hp : nsPacketParseIpv6 p a offset = nsPacketMarkMalformed p .ipv6Truncated := by
      simp only [nsPacketParseIpv6, hm]
    rw [hp]
    exact truncated_reportedBy ⟨hq.1.trans hpq.hasEth,hq.2.trans hpq.eth⟩ (fun h => absurd hn h) ht rfl
  · have hstable := nsParseIpv6_stable (drop_extends h offset) hm
    cases hm' : nsParseIpv6 (a.drop offset) with
    | error e =>
      unfold nsPacketParseIpv6
      rw [hstable, hm']
      cases e with
      | truncated => exact absurd hm' hm
      | malformed => exact (markMalformed_sameLayers hpq .ipv6Inconsistent).reportedBy
      | unsupported => exact (markMalformed_sameLayers hpq .ipv6Inconsistent).reportedBy
    | ok m =>
      have hnet := nsPacketParseIpv6_sameNetwork q b offset (hstable.trans hm')
      have hlayers := setNet_sameLayers hpq .ipv6 (.ipv6 m.1)
      rcases hs : nsIpv6SkipExtensionHeaders a (offset + m.2) m.1.nextHeader with ⟨accepted,extOffset,nextHeader⟩
      cases accepted with
      | false =>
        -- The chain may be accepted from more bytes; only the layers below it are settled.
        have htrunc := truncated_reportedBy ⟨hnet.hasEth.trans hlayers.hasEth,hnet.eth.trans hlayers.eth⟩
          (fun _ => ⟨hnet.networkProto.trans hlayers.networkProto,hnet.net.trans hlayers.net⟩) ht
          (show isInconsistent .ipv6ChainInvalid = false from rfl)
        rw [nsPacketParseIpv6_rejected p hm' hs, nsPacketSetPayload_eq]
        exact ⟨htrunc.eth,htrunc.net,htrunc.transport,htrunc.wellFormed,htrunc.inconsistent⟩
      | true =>
        have hs' : nsIpv6SkipExtensionHeaders b (offset + m.2) m.1.nextHeader = (true,extOffset,nextHeader) := by
          have hok : (skipExtensionHeaders a ipv6MaxExtensionHeaders (offset + m.2) m.1.nextHeader).1 = true :=
            congrArg Prod.fst hs
          exact (skipExtensionHeaders_stable h hok).trans hs
        rw [nsPacketParseIpv6_accepted p hm' hs, nsPacketParseIpv6_accepted q (hstable.trans hm') hs']
        exact nsPacketParseTransport_reportedBy h (setPayload_sameLayers hlayers _ _ _ _)
          (by rw [nsPacketSetPayload_eq]; exact ht) extOffset nextHeader

theorem nsPacketParseArp_reportedBy (offset : ℕ) :
    ReportedBy (nsPacketParseArp p a offset) (nsPacketParseArp q b offset) := by
  have hq := nsPacketParseArp_sameLink q b offset
  by_cases hm : nsParseArp (a.drop offset) = .error .truncated
  · have hp : nsPacketParseArp p a offset = nsPacketMarkMalformed (nsPacketSetPayload p a.length offset) .arpTruncated := by
      simp only [nsPacketParseArp, hm, nsPacketSetPayload_eq]
      rfl
    have hset := setPayload_keeps p a.length offset
    rw [hp]
    exact truncated_reportedBy
      ⟨hq.1.trans (hpq.hasEth.trans hset.hasEth.symm),hq.2.trans (hpq.eth.trans hset.eth.symm)⟩
      (fun h => absurd (hset.networkProto.trans hn) h) (hset.transportProto.trans ht) rfl
  · unfold nsPacketParseArp
    rw [nsParseArp_stable (drop_extends h offset) hm]
    apply SameLayers.reportedBy
    apply setPayload_sameLayers
    cases hm' : nsParseArp (a.drop offset) with
    | ok info => exact setNet_sameLayers hpq .arp (.arp info)
    | error e =>
      cases e with
      | truncated => exact absurd hm' hm
      | malformed => exact hpq
      | unsupported => exact hpq

theorem nsPacketParseNetwork_reportedBy (offset : ℕ) (ethertype : UInt16) :
    ReportedBy (nsPacketParseNetwork p a offset ethertype) (nsPacketParseNetwork q b offset ethertype) := by
  unfold nsPacketParseNetwork
  split
  · exact nsPacketParseIpv4_reportedBy h hpq ht hn offset
  · split
    · exact nsPacketParseIpv6_reportedBy h hpq ht hn offset
    · split
      · exact nsPacketParseArp_reportedBy h hpq ht hn offset
      · exact hpq.reportedBy

end NetworkWalk

/-- A shorter capture of a frame never misreports a header of the longer one. -/
theorem nsPacketParse_snapLength (frame : Bytes) (s₁ s₂ : ℕ) (hs : s₁ ≤ s₂) (originalLength : ℕ) (timestamp : Timestamp)
    (number : UInt64) :
    ReportedBy (nsPacketParse (frame.take s₁) originalLength timestamp number .ethernet)
      (nsPacketParse (frame.take s₂) originalLength timestamp number .ethernet) := by
  have hpre : frame.take s₁ <+: frame.take s₂ := List.take_prefix_take_left hs
  have hinit : SameLayers (initialPacket (frame.take s₁) originalLength timestamp number .ethernet)
      (initialPacket (frame.take s₂) originalLength timestamp number .ethernet) := ⟨⟨rfl,rfl,rfl,rfl⟩,rfl,rfl,rfl,rfl⟩
  unfold nsPacketParse
  rw [if_neg (not_not.mpr rfl), if_neg (not_not.mpr rfl)]
  cases hm : nsParseEthernet (frame.take s₁) with
  | error e =>
    constructor
    case inconsistent =>
      intro reason _ hr hi
      obtain rfl := Option.some.inj hr
      cases hi
    all_goals
      intro hp
      first | exact absurd rfl hp | cases hp
  | ok m =>
    have hstable := nsParseEthernet_stable hpre (fun he => nomatch hm.symm.trans he)
    rw [hstable, hm]
    have heth : SameLayers
        { initialPacket (frame.take s₁) originalLength timestamp number .ethernet with eth := m.1, hasEth := true }
        { initialPacket (frame.take s₂) originalLength timestamp number .ethernet with eth := m.1, hasEth := true } :=
      ⟨⟨rfl,rfl,rfl,rfl⟩,rfl,rfl,rfl,rfl⟩
    exact nsPacketParseNetwork_reportedBy hpre (setPayload_sameLayers heth _ _ _ _)
      (by rw [nsPacketSetPayload_eq]; rfl) (by rw [nsPacketSetPayload_eq]; rfl) m.2 m.1.ethertype

/-- A TCP segment over IPv4 with no options and no payload. -/
def synFrame : Bytes :=
  [1,2,3,4,5,6,7,8,9,10,11,12,0x08,0x00,
   0x45,0,0,40,0,1,0x40,0,64,6,0,0,10,0,0,1,10,0,0,2,
   0x30,0x39,0,80,0,0,0,1,0,0,0,0,0x50,2,0xFF,0xFF,0,0,0,0]

theorem nsPacketParse_snapLength_synFrame :
    34 ≤ 54 ∧ (nsPacketParse (synFrame.take 34) 54 ⟨0,0⟩ 1 .ethernet).networkProto = .ipv4 ∧
    ReportedBy (nsPacketParse (synFrame.take 34) 54 ⟨0,0⟩ 1 .ethernet)
      (nsPacketParse (synFrame.take 54) 54 ⟨0,0⟩ 1 .ethernet) :=
  ⟨by decide,by decide +kernel,nsPacketParse_snapLength synFrame 34 54 (by decide) 54 ⟨0,0⟩ 1⟩

end Netscope.SnapLength
