import Netscope.Model.Packet

/-! # What the header parsers accept

One equivalence for each parser: the checks that have passed when it returns, and
the fields it returns.
-/
namespace Netscope
open ByteString

section Accepts
variable {data : Bytes}

theorem nsParseEthernet_eq_ok_iff {r : EthInfo × ℕ} :
    nsParseEthernet data = .ok r ↔
      (18 ≤ data.length ∧ u16 data 12 = ethertypeVlan ∧
        r = (⟨slice data 0 6,slice data 6 6,u16 data 16,true,u16 data 14 &&& 0x0FFF⟩,18)) ∨
      (14 ≤ data.length ∧ u16 data 12 ≠ ethertypeVlan ∧
        r = (⟨slice data 0 6,slice data 6 6,u16 data 12,false,0⟩,14)) := by
  unfold nsParseEthernet
  simp only [nsBoundsCheck_eq]
  by_cases h14 : 14 ≤ data.length
  · by_cases hv : u16 data 12 = ethertypeVlan
    · by_cases h18 : 18 ≤ data.length
      · simp [h14, hv, h18, eq_comm]
      · simp [h14, hv, h18]
    · simp [h14, hv, eq_comm]
  · have h18 : ¬18 ≤ data.length := by omega
    simp [h14, h18]

theorem nsParseArp_eq_ok_iff {info : ArpInfo} :
    nsParseArp data = .ok info ↔
      28 ≤ data.length ∧ u16 data 0 = 1 ∧ u16 data 2 = 0x0800 ∧ u8 data 4 = 6 ∧ u8 data 5 = 4 ∧
        info = ⟨u16 data 6,slice data 8 6,slice data 14 4,slice data 18 6,slice data 24 4⟩ := by
  unfold nsParseArp
  simp only [nsBoundsCheck_eq]
  by_cases h8 : 8 ≤ data.length
  · by_cases hf : u16 data 0 = 1 ∧ u16 data 2 = 0x0800 ∧ u8 data 4 = 6 ∧ u8 data 5 = 4
    · obtain ⟨h0,h2,h4,h5⟩ := hf
      by_cases h28 : 28 ≤ data.length
      · simp [h8, h0, h2, h4, h5, h28, eq_comm]
      · simp [h8, h0, h2, h4, h5, h28]
    · have hn : u16 data 0 ≠ 1 ∨ u16 data 2 ≠ 0x0800 ∨ u8 data 4 ≠ 6 ∨ u8 data 5 ≠ 4 := by tauto
      simp only [h8, hn, Nat.zero_add, decide_true, Bool.not_true, Bool.false_eq_true, ↓reduceIte, reduceCtorEq, false_iff]
      rintro ⟨_,h0,h2,h4,h5,_⟩
      exact hf ⟨h0,h2,h4,h5⟩
  · have h28 : ¬28 ≤ data.length := by omega
    simp [h8, h28]

theorem nsParseIpv4_eq_ok_iff {r : Ipv4Info × ℕ} :
    nsParseIpv4 data = .ok r ↔
      20 ≤ data.length ∧ u8 data 0 >>> 4 = 4 ∧ (5 : UInt8) ≤ u8 data 0 &&& 0x0F ∧
        (u8 data 0 &&& 0x0F).toNat * 4 ≤ data.length ∧ (u8 data 0 &&& 0x0F).toNat * 4 ≤ (u16 data 2).toNat ∧
        r = (ipv4Fields data,(u8 data 0 &&& 0x0F).toNat * 4) := by
  unfold nsParseIpv4
  simp only [nsBoundsCheck_eq]
  generalize u8 data 0 &&& 0x0F = ihl
  by_cases h20 : 20 ≤ data.length
  · by_cases hv : u8 data 0 >>> 4 = 4
    · by_cases hihl : ihl < 5
      · simp [h20, hv, hihl, UInt8.not_le.mpr hihl]
      · by_cases hh : ihl.toNat * 4 ≤ data.length
        · by_cases ht : (u16 data 2).toNat < ihl.toNat * 4
          · simp [h20, hv, hihl, hh, ht, Nat.not_le.mpr ht]
          · simp [h20, hv, hihl, hh, ht, UInt8.not_lt.mp hihl, Nat.not_lt.mp ht, eq_comm]
        · simp [h20, hv, hihl, hh]
    · simp [h20, hv]
  · simp [h20]

theorem nsParseIpv6_eq_ok_iff {r : Ipv6Info × ℕ} :
    nsParseIpv6 data = .ok r ↔
      40 ≤ data.length ∧ (u32 data 0 >>> 28).toUInt8 = 6 ∧ r = (ipv6Fields data,40) := by
  unfold nsParseIpv6
  simp only [nsBoundsCheck_eq]
  by_cases h40 : 40 ≤ data.length
  · by_cases hv : (u32 data 0 >>> 28).toUInt8 = 6
    · simp [h40, hv, eq_comm]
    · simp [h40, hv]
  · simp [h40]

theorem nsParseTcp_eq_ok_iff {r : TcpInfo × ℕ} :
    nsParseTcp data = .ok r ↔
      20 ≤ data.length ∧ (5 : UInt8) ≤ u8 data 12 >>> 4 ∧ (u8 data 12 >>> 4).toNat * 4 ≤ data.length ∧
        r = (tcpFields data,(u8 data 12 >>> 4).toNat * 4) := by
  unfold nsParseTcp
  simp only [nsBoundsCheck_eq]
  generalize u8 data 12 >>> 4 = dataOffset
  by_cases h20 : 20 ≤ data.length
  · by_cases ho : dataOffset < 5
    · simp [h20, ho, UInt8.not_le.mpr ho]
    · by_cases hh : dataOffset.toNat * 4 ≤ data.length
      · simp [h20, ho, hh, UInt8.not_lt.mp ho, eq_comm]
      · simp [h20, ho, hh]
  · simp [h20]

theorem nsParseUdp_eq_ok_iff {info : UdpInfo} :
    nsParseUdp data = .ok info ↔
      8 ≤ data.length ∧ 8 ≤ u16 data 4 ∧ info = ⟨u16 data 0,u16 data 2,u16 data 4,u16 data 6⟩ := by
  unfold nsParseUdp
  simp only [nsBoundsCheck_eq]
  by_cases h8 : 8 ≤ data.length
  · by_cases hu : u16 data 4 < 8
    · simp [h8, hu, UInt16.not_le.mpr hu]
    · simp [h8, hu, UInt16.not_lt.mp hu, eq_comm]
  · simp [h8]

theorem parseEcho_eq_ok_iff {isEcho : UInt8 → Bool} {info : IcmpInfo} :
    parseEcho isEcho data = .ok info ↔
      (8 ≤ data.length ∧ isEcho (u8 data 0) = true ∧
        info = ⟨u8 data 0,u8 data 1,u16 data 2,u16 data 4,u16 data 6⟩) ∨
      (4 ≤ data.length ∧ isEcho (u8 data 0) = false ∧ info = ⟨u8 data 0,u8 data 1,u16 data 2,0,0⟩) := by
  unfold parseEcho
  simp only [nsBoundsCheck_eq]
  by_cases h4 : 4 ≤ data.length
  · cases he : isEcho (u8 data 0)
    · simp [h4, eq_comm]
    · by_cases h8 : 8 ≤ data.length
      · simp [h4, h8, eq_comm]
      · simp [h4, h8]
  · have h8 : ¬8 ≤ data.length := by omega
    simp [h4, h8]

theorem nsParseEthernet_headerLen_le {eth : EthInfo} {headerLen : ℕ} (h : nsParseEthernet data = .ok (eth,headerLen)) :
    headerLen ≤ data.length := by
  rcases nsParseEthernet_eq_ok_iff.mp h with ⟨hlen,_,hr⟩ | ⟨hlen,_,hr⟩
  · obtain ⟨rfl,rfl⟩ := Prod.mk.inj hr
    exact hlen
  · obtain ⟨rfl,rfl⟩ := Prod.mk.inj hr
    exact hlen

theorem nsParseIpv4_headerLen_le {info : Ipv4Info} {headerLen : ℕ} (h : nsParseIpv4 data = .ok (info,headerLen)) :
    headerLen ≤ data.length := by
  obtain ⟨_,_,_,hlen,_,hr⟩ := nsParseIpv4_eq_ok_iff.mp h
  obtain ⟨rfl,rfl⟩ := Prod.mk.inj hr
  exact hlen

theorem nsParseIpv6_headerLen_le {info : Ipv6Info} {headerLen : ℕ} (h : nsParseIpv6 data = .ok (info,headerLen)) :
    headerLen ≤ data.length := by
  obtain ⟨hlen,_,hr⟩ := nsParseIpv6_eq_ok_iff.mp h
  obtain ⟨rfl,rfl⟩ := Prod.mk.inj hr
  exact hlen

theorem nsParseTcp_headerLen_le {info : TcpInfo} {headerLen : ℕ} (h : nsParseTcp data = .ok (info,headerLen)) :
    headerLen ≤ data.length := by
  obtain ⟨_,_,hlen,hr⟩ := nsParseTcp_eq_ok_iff.mp h
  obtain ⟨rfl,rfl⟩ := Prod.mk.inj hr
  exact hlen

end Accepts

/-! ## The IPv4 walk by the verdict on its fragment fields -/

section Ipv4Walk
variable (out : Packet) {data : Bytes} {offset : ℕ} {info : Ipv4Info} {headerLen : ℕ}
  (hm : nsParseIpv4 (data.drop offset) = .ok (info,headerLen))
include hm

theorem nsPacketParseIpv4_stopped (hf : (info.isFragment && !info.isInitialFragment) = true) :
    nsPacketParseIpv4 out data offset =
      nsPacketSetPayload { out with net := .ipv4 info, networkProto := .ipv4 } data.length (offset + headerLen) := by
  simp only [nsPacketParseIpv4, hm, hf, ↓reduceIte]

theorem nsPacketParseIpv4_continued (hf : (info.isFragment && !info.isInitialFragment) = false) :
    nsPacketParseIpv4 out data offset =
      nsPacketParseTransport
        (nsPacketSetPayload { out with net := .ipv4 info, networkProto := .ipv4 } data.length (offset + headerLen)) data
        (offset + headerLen) info.protocol := by
  simp only [nsPacketParseIpv4, hm, hf, Bool.false_eq_true, ↓reduceIte]

/-- The walk stops at every fragment but the first. -/
theorem nsParseIpv4_stops_iff :
    (info.isFragment && !info.isInitialFragment) = true ↔ info.fragmentOffset ≠ 0 := by
  obtain ⟨_,_,_,_,_,hr⟩ := nsParseIpv4_eq_ok_iff.mp hm
  obtain ⟨rfl,_⟩ := Prod.mk.inj hr
  by_cases h0 : (ipv4Fields (data.drop offset)).fragmentOffset = 0
  · simp [ipv4Fields] at h0
    simp [ipv4Fields, h0]
  · simp [ipv4Fields] at h0
    simp [ipv4Fields, h0]

end Ipv4Walk

/-! ## One iteration over the extension headers -/

section Extensions
variable {data : Bytes} {budget offset : ℕ} {nextHeader : UInt8}

theorem skipExtensionHeaders_options (hopt : isOptionsHeader nextHeader = true)
    (hlen : offset + optionsHeaderLength data offset ≤ data.length) :
    skipExtensionHeaders data (budget + 1) offset nextHeader =
      skipExtensionHeaders data budget (offset + optionsHeaderLength data offset) (u8 data offset) := by
  have h2 : offset + 2 ≤ data.length := by
    have : 8 ≤ optionsHeaderLength data offset := Nat.le_mul_of_pos_left 8 (Nat.succ_pos _)
    omega
  simp only [skipExtensionHeaders, nsBoundsCheck_eq, hopt, h2, hlen, decide_true, Bool.not_true, Bool.false_eq_true,
    ↓reduceIte]

theorem skipExtensionHeaders_fragment (hlen : offset + 8 ≤ data.length) :
    skipExtensionHeaders data (budget + 1) offset ipv6NextFragment =
      skipExtensionHeaders data budget (offset + 8) (u8 data offset) := by
  have hopt : isOptionsHeader ipv6NextFragment = false := by decide
  have h1 : offset + 1 ≤ data.length := by omega
  simp only [skipExtensionHeaders, nsBoundsCheck_eq, hopt, h1, hlen, decide_true, Bool.not_true, Bool.or_self,
    Bool.false_eq_true, ↓reduceIte]

theorem skipExtensionHeaders_upper (hopt : isOptionsHeader nextHeader = false) (hfrag : nextHeader ≠ ipv6NextFragment) :
    skipExtensionHeaders data (budget + 1) offset nextHeader = (true,offset,nextHeader) := by
  simp only [skipExtensionHeaders, hopt, hfrag, Bool.false_eq_true, ↓reduceIte]

end Extensions

/-! ## The IPv6 walk by the verdict on its extension headers -/

section Ipv6Walk
variable (out : Packet) {data : Bytes} {offset : ℕ} {info : Ipv6Info} {headerLen extOffset : ℕ} {nextHeader : UInt8}

theorem nsPacketParseIpv6_rejected (hm : nsParseIpv6 (data.drop offset) = .ok (info,headerLen))
    (hs : nsIpv6SkipExtensionHeaders data (offset + headerLen) info.nextHeader = (false,extOffset,nextHeader)) :
    nsPacketParseIpv6 out data offset =
      nsPacketSetPayload (nsPacketMarkMalformed { out with net := .ipv6 info, networkProto := .ipv6 } .ipv6ChainInvalid)
        data.length extOffset := by
  simp only [nsPacketParseIpv6, hm, hs]

theorem nsPacketParseIpv6_accepted (hm : nsParseIpv6 (data.drop offset) = .ok (info,headerLen))
    (hs : nsIpv6SkipExtensionHeaders data (offset + headerLen) info.nextHeader = (true,extOffset,nextHeader)) :
    nsPacketParseIpv6 out data offset =
      nsPacketParseTransport
        (nsPacketSetPayload { out with net := .ipv6 info, networkProto := .ipv6 } data.length extOffset) data extOffset
        nextHeader := by
  simp only [nsPacketParseIpv6, hm, hs]

end Ipv6Walk

end Netscope
