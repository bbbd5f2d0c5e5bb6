import Netscope.Layers.FrameFormat
import Netscope.Layers.LayerFrames

/-! # Decoding what was encoded

Each header parser reads back the header in front of it, and the layer walk reads
back a whole frame.
-/
namespace Netscope.RoundTrip
open ByteString BitFields Layers Wire

/-! ## Headers -/

theorem nsParseEthernet_encode (h : LinkHeader) {ethertype : UInt16} (hne : ethertype ≠ ethertypeVlan) (rest : Bytes) :
    nsParseEthernet (h.encode ethertype ++ rest) = .ok (h.info ethertype,(h.encode ethertype).length) := by
  rw [nsParseEthernet_eq_ok_iff]
  cases htag : h.tag with
  | none =>
    refine .inr ?_
    simp (disch := simp) [LinkHeader.encode, LinkHeader.info, htag, u16_skip, slice_skip, hne]
    omega
  | some t =>
    have hid := pack16_low (k := 12) (j := 4) rfl t.priority_lt t.id_lt
    refine .inl ?_
    simp (disch := simp) [LinkHeader.encode, LinkHeader.info, htag, VlanTag.encode, u16_skip, slice_skip]
    exact ⟨by omega,hid.symm⟩

theorem nsParseArp_encode (a : ArpInfo) (rest : Bytes) : nsParseArp (encodeArp a ++ rest) = .ok a := by
  rw [nsParseArp_eq_ok_iff]
  simp (disch := simp) [encodeArp, u8_skip, u16_skip, slice_skip]
  omega

theorem flagsWord_flags (reserved flagDf flagMf : Bool) :
    flagsWord reserved flagDf flagMf &&& 0x1FFF = 0 ∧
      decide (flagsWord reserved flagDf flagMf &&& 0x4000 = 0) = !flagDf ∧
      decide (flagsWord reserved flagDf flagMf &&& 0x2000 = 0) = !flagMf := by
  revert reserved flagDf flagMf
  decide

theorem ipv4Header_length (h : Ipv4Header) (protocol : UInt8) : (h.encode protocol).length = h.ihl.toNat * 4 := by
  have hge := h.ihl_ge
  simp only [Ipv4Header.encode, List.length_append, List.length_singleton, be16_length, Vector.length_toList,
    h.options_length]
  omega

theorem ipv4Header_ihl (h : Ipv4Header) : pack8 4 4 h.ihl &&& 0x0F = h.ihl :=
  pack8_low (j := 4) rfl (by decide) h.ihl_lt

theorem ipv4Fields_encode (h : Ipv4Header) (protocol : UInt8) (rest : Bytes) :
    ipv4Fields (h.encode protocol ++ rest) = h.info protocol := by
  have hversion : pack8 4 4 h.ihl >>> 4 = 4 := pack8_high (j := 4) rfl (by decide) h.ihl_lt (by decide)
  have hdscp : pack8 2 h.dscp h.ecn >>> 2 = h.dscp := pack8_high (j := 6) rfl h.dscp_lt h.ecn_lt (by decide)
  have hecn : pack8 2 h.dscp h.ecn &&& 0x03 = h.ecn := pack8_low (j := 6) rfl h.dscp_lt h.ecn_lt
  obtain ⟨hoffset,hdf,hmf⟩ := flagsWord_flags h.reserved h.flagDf h.flagMf
  simp (disch := simp) [ipv4Fields, Ipv4Header.encode, Ipv4Header.info, u8_skip, u16_skip, slice_skip, hversion,
    ipv4Header_ihl, hdscp, hecn, hoffset, hdf, hmf, -UInt8.toNat_and]

theorem nsParseIpv4_encode (h : Ipv4Header) (protocol : UInt8) (rest : Bytes) :
    nsParseIpv4 (h.encode protocol ++ rest) = .ok (h.info protocol,(h.encode protocol).length) := by
  have hlen := ipv4Header_length h protocol
  have hge := h.ihl_ge
  have hversion : pack8 4 4 h.ihl >>> 4 = 4 := pack8_high (j := 4) rfl (by decide) h.ihl_lt (by decide)
  have hfirst : u8 (h.encode protocol ++ rest) 0 = pack8 4 4 h.ihl := rfl
  have htotal : u16 (h.encode protocol ++ rest) 2 = h.totalLength := by simp [Ipv4Header.encode]
  rw [nsParseIpv4_eq_ok_iff, ipv4Fields_encode, hfirst, ipv4Header_ihl, htotal, List.length_append, hlen]
  exact ⟨by omega,hversion,UInt8.le_iff_toNat_le.mpr hge,by omega,h.totalLength_ge,rfl⟩

/-! ### IPv6 and its extension headers -/

theorem ipv6Header_firstWord (h : Ipv6Header) :
    (h.firstWord >>> 28).toUInt8 = 6 ∧ ((h.firstWord >>> 20) &&& 0xFF).toUInt8 = h.trafficClass ∧
      h.firstWord &&& 0x000FFFFF = h.flowLabel := by
  have hclass := h.trafficClass.toNat_lt
  have hlabel := h.flowLabel_lt
  have hword : h.firstWord.toNat = (6 * 2 ^ 8 + h.trafficClass.toNat) * 2 ^ 20 + h.flowLabel.toNat :=
    UInt32.toNat_ofNat_of_lt' (by simp only [UInt32.size]; omega)
  refine ⟨UInt8.toNat_inj.mp ?_,UInt8.toNat_inj.mp ?_,UInt32.toNat_inj.mp ?_⟩
  · simp only [UInt32.toNat_toUInt8, UInt32.toNat_shiftRight, hword, Nat.shiftRight_eq_div_pow, UInt32.reduceToNat,
      UInt8.reduceToNat, Nat.reduceMod]
    omega
  · have hmask := Nat.and_two_pow_sub_one_eq_mod (h.firstWord.toNat / 2 ^ 20) 8
    simp only [UInt32.toNat_toUInt8, UInt32.toNat_and, UInt32.toNat_shiftRight, Nat.shiftRight_eq_div_pow,
      UInt32.reduceToNat, Nat.reduceMod]
    rw [show (255 : ℕ) = 2 ^ 8 - 1 from rfl, hmask, hword]
    omega
  · have hmask := Nat.and_two_pow_sub_one_eq_mod h.firstWord.toNat 20
    simp only [UInt32.toNat_and, UInt32.reduceToNat]
    rw [show (1048575 : ℕ) = 2 ^ 20 - 1 from rfl, hmask, hword]
    omega

theorem ipv6Header_length (h : Ipv6Header) (nextHeader : UInt8) : (h.encode nextHeader).length = 40 := by
  simp [Ipv6Header.encode]

theorem nsParseIpv6_encode (h : Ipv6Header) (nextHeader : UInt8) (rest : Bytes) :
    nsParseIpv6 (h.encode nextHeader ++ rest) = .ok (h.info nextHeader,40) := by
  obtain ⟨hversion,hclass,hlabel⟩ := ipv6Header_firstWord h
  have hfirst : u32 (h.encode nextHeader ++ rest) 0 = h.firstWord := by simp [Ipv6Header.encode]
  have hfields : ipv6Fields (h.encode nextHeader ++ rest) = h.info nextHeader := by
    unfold ipv6Fields
    rw [hfirst, hversion, hclass, hlabel]
    simp (disch := simp) [Ipv6Header.encode, Ipv6Header.info, u8_skip, u16_skip, slice_skip]
  rw [nsParseIpv6_eq_ok_iff, hfirst, hfields, List.length_append, ipv6Header_length]
  exact ⟨by omega,hversion,rfl⟩

/-- A serialised extension header announces the next header in its first byte. -/
theorem extension_nextHeader (before : Bytes) (e : ExtensionHeader) (nextHeader : UInt8) (rest : Bytes) :
    u8 (before ++ (e.encode nextHeader ++ rest)) before.length = nextHeader := by
  rw [u8_skip _ le_rfl, Nat.sub_self]
  cases e <;> rfl

/-- A serialised options header announces its length. -/
theorem optionsHeaderLength_encode (before : Bytes) (kind : OptionsKind) (units : UInt8) (body : Bytes)
    (h : 2 + body.length = (units.toNat + 1) * 8) (nextHeader : UInt8) (rest : Bytes) :
    optionsHeaderLength (before ++ ((ExtensionHeader.options kind units body h).encode nextHeader ++ rest)) before.length =
      ((ExtensionHeader.options kind units body h).encode nextHeader).length := by
  have hbyte : u8 (before ++ ((ExtensionHeader.options kind units body h).encode nextHeader ++ rest))
      (before.length + 1) = units := by
    rw [u8_append_right]
    rfl
  rw [optionsHeaderLength, hbyte]
  simp only [ExtensionHeader.encode, List.length_append, List.length_singleton]
  omega

/-- One extension header is stepped over. -/
theorem skipExtensionHeaders_encode (before : Bytes) (e : ExtensionHeader) (nextHeader : UInt8) (rest : Bytes) (budget : ℕ) :
    skipExtensionHeaders (before ++ (e.encode nextHeader ++ rest)) (budget + 1) before.length e.number =
      skipExtensionHeaders (before ++ (e.encode nextHeader ++ rest)) budget (before.length + (e.encode nextHeader).length)
        nextHeader := by
  have hnext := extension_nextHeader before e nextHeader rest
  cases e with
  | options kind units body h =>
    have hopt : isOptionsHeader (ExtensionHeader.options kind units body h).number = true := by cases kind <;> rfl
    have hunits := optionsHeaderLength_encode before kind units body h nextHeader rest
    rw [skipExtensionHeaders_options hopt (by simp only [hunits, List.length_append]; omega), hunits, hnext]
  | fragment reserved flags identification h =>
    have hlen : ((ExtensionHeader.fragment reserved flags identification h).encode nextHeader).length = 8 := by
      simp [ExtensionHeader.encode]
    refine (skipExtensionHeaders_fragment (by simp only [List.length_append, hlen]; omega)).trans ?_
    rw [hnext, hlen]

/-- A chain is walked to the header behind it. -/
theorem skipExtensionHeaders_chain (upper : UInt8) (hopt : isOptionsHeader upper = false) (hfrag : upper ≠ ipv6NextFragment)
    (rest : Bytes) (chain : List ExtensionHeader) (before : Bytes) {budget : ℕ} (hb : chain.length < budget) :
    skipExtensionHeaders (before ++ (encodeChain upper chain ++ rest)) budget before.length (chainNumber upper chain) =
      (true,before.length + (encodeChain upper chain).length,upper) := by
  induction chain generalizing before budget with
  | nil =>
    obtain ⟨budget,rfl⟩ := Nat.exists_eq_succ_of_ne_zero (Nat.ne_of_gt hb)
    exact skipExtensionHeaders_upper hopt hfrag
  | cons e chain ih =>
    obtain ⟨budget,rfl⟩ := Nat.exists_eq_succ_of_ne_zero (Nat.ne_of_gt (Nat.zero_lt_of_lt hb))
    have hrest := ih (before ++ e.encode (chainNumber upper chain)) (Nat.lt_of_succ_lt_succ hb)
    simp only [encodeChain, chainNumber, List.append_assoc] at hrest ⊢
    rw [skipExtensionHeaders_encode, ← List.length_append, hrest, List.length_append, List.length_append, Nat.add_assoc]

/-! ### The upper layers -/

theorem tcpHeader_length (h : TcpHeader) : h.encode.length = h.dataOffset.toNat * 4 := by
  have hge := h.dataOffset_ge
  simp only [TcpHeader.encode, List.length_append, List.length_singleton, be16_length, be32_length, h.options_length]
  omega

theorem nsParseTcp_encode (h : TcpHeader) (rest : Bytes) :
    nsParseTcp (h.encode ++ rest) = .ok (h.info,h.encode.length) := by
  have hge := h.dataOffset_ge
  have hoffset : pack8 4 h.dataOffset h.reserved >>> 4 = h.dataOffset :=
    pack8_high (j := 4) rfl h.dataOffset_lt h.reserved_lt (by decide)
  have hbyte : u8 (h.encode ++ rest) 12 = pack8 4 h.dataOffset h.reserved := by
    simp (disch := simp) [TcpHeader.encode, u8_skip]
  have hfields : tcpFields (h.encode ++ rest) = h.info := by
    unfold tcpFields
    rw [hbyte, hoffset]
    simp (disch := simp) [TcpHeader.encode, TcpHeader.info, u8_skip, u16_skip, u32_skip]
  rw [nsParseTcp_eq_ok_iff, hbyte, hoffset, hfields, List.length_append, tcpHeader_length]
  exact ⟨by omega,UInt8.le_iff_toNat_le.mpr hge,by omega,rfl⟩

theorem nsParseUdp_encode (h : UdpHeader) (rest : Bytes) : nsParseUdp (h.encode ++ rest) = .ok h.toUdpInfo := by
  rw [nsParseUdp_eq_ok_iff]
  simp (disch := simp) [UdpHeader.encode, u16_skip, h.length_ge]
  omega

theorem parseEcho_encode {isEcho : UInt8 → Bool} (m : EchoMessage isEcho) (rest : Bytes) :
    parseEcho isEcho (m.encode ++ rest) = .ok m.info := by
  rw [parseEcho_eq_ok_iff]
  cases m with
  | echo type code checksum identifier sequence h =>
    refine .inl ?_
    simp (disch := simp) [EchoMessage.encode, EchoMessage.info, u16_skip, h]
    omega
  | other type code checksum h =>
    refine .inr ?_
    simp [EchoMessage.encode, EchoMessage.info, h]

/-! ## The layer walk -/

theorem upperLayer_not_extension (u : UpperLayer) : isOptionsHeader u.number = false ∧ u.number ≠ ipv6NextFragment := by
  cases u with
  | tcp | udp | icmp | icmpv6 => exact ⟨rfl,by simp only [UpperLayer.number]; decide⟩

/-- The network step hands the upper layer on, with the network layer filled in. -/
theorem nsPacketParseNetwork_encode (p : Packet) (before : Bytes) (ip : IpHeader) (u : UpperLayer) (rest : Bytes) :
    nsPacketParseNetwork p (before ++ (ip.encode u.number ++ rest)) before.length ip.ethertype =
      nsPacketParseTransport
        (nsPacketSetPayload { p with net := ip.union u.number, networkProto := ip.proto }
          (before ++ (ip.encode u.number ++ rest)).length (before ++ ip.encode u.number).length)
        (before ++ (ip.encode u.number ++ rest)) (before ++ ip.encode u.number).length u.number := by
  obtain ⟨hopt,hfrag⟩ := upperLayer_not_extension u
  cases ip with
  | ipv4 h =>
    have hm : nsParseIpv4 ((before ++ (h.encode u.number ++ rest)).drop before.length) =
        .ok (h.info u.number,(h.encode u.number).length) := by
      rw [List.drop_left, nsParseIpv4_encode]
    have hfirst : ((h.info u.number).isFragment && !(h.info u.number).isInitialFragment) = false := Bool.and_not_self _
    refine (nsPacketParseIpv4_continued p hm hfirst).trans ?_
    rw [← List.length_append]
    rfl
  | ipv6 h chain short =>
    have hm : nsParseIpv6 ((before ++ (h.encode (chainNumber u.number chain) ++ encodeChain u.number chain ++ rest)).drop
        before.length) = .ok (h.info (chainNumber u.number chain),40) := by
      rw [List.drop_left, List.append_assoc, nsParseIpv6_encode]
    have hs := skipExtensionHeaders_chain u.number hopt hfrag rest chain
      (before ++ h.encode (chainNumber u.number chain)) (Nat.lt_succ_of_le short)
    rw [List.length_append, ipv6Header_length, List.append_assoc before, ← List.append_assoc (h.encode _)] at hs
    refine (nsPacketParseIpv6_accepted p hm hs).trans ?_
    have hlen : before.length + 40 + (encodeChain u.number chain).length =
        (before ++ IpHeader.encode u.number (.ipv6 h chain short)).length := by
      rw [IpHeader.encode, List.length_append, List.length_append, ipv6Header_length, Nat.add_assoc]
    rw [hlen]
    rfl

section Transport
variable (p : Packet) (before : Bytes) (u : UpperLayer) (payload : Bytes)

/-- The packet with the upper layer filled in. -/
def withUpper : Packet := { p with transport := u.union, transportProto := u.proto }

theorem nsPacketParseTransport_ports {srcPort dstPort : UInt16} (hports : u.ports = some (srcPort,dstPort)) :
    nsPacketParseTransport p (before ++ (u.encode ++ payload)) before.length u.number =
      nsPacketParseDnsIfApplicable
        (nsPacketSetPayload (withUpper p u) (before ++ (u.encode ++ payload)).length (before ++ u.encode).length)
        (before ++ (u.encode ++ payload)) (before ++ u.encode).length srcPort dstPort := by
  have hlen : (before ++ u.encode).length = before.length + u.encode.length := List.length_append
  unfold nsPacketParseTransport
  rw [List.drop_left, hlen]
  cases u with
  | tcp h =>
    obtain ⟨rfl,rfl⟩ := Prod.mk.inj (Option.some.inj hports)
    simp only [UpperLayer.number, UpperLayer.encode, ↓reduceIte, nsParseTcp_encode]
    rfl
  | udp h =>
    obtain ⟨rfl,rfl⟩ := Prod.mk.inj (Option.some.inj hports)
    have h8 : h.encode.length = 8 := by simp [UdpHeader.encode]
    simp only [UpperLayer.number, UpperLayer.encode, nsParseUdp_encode, h8]
    rfl
  | icmp m => cases hports
  | icmpv6 m => cases hports

theorem nsPacketParseTransport_message (hports : u.ports = none) :
    nsPacketParseTransport p (before ++ (u.encode ++ payload)) before.length u.number = withUpper p u := by
  unfold nsPacketParseTransport
  rw [List.drop_left]
  cases u with
  | tcp h => cases hports
  | udp h => cases hports
  | icmp m =>
    simp only [UpperLayer.number, UpperLayer.encode, nsParseIcmp, parseEcho_encode]
    rfl
  | icmpv6 m =>
    simp only [UpperLayer.number, UpperLayer.encode, nsParseIcmpv6, parseEcho_encode]
    rfl

theorem nsPacketParseTransport_encode :
    SameLayers (withUpper p u) (nsPacketParseTransport p (before ++ (u.encode ++ payload)) before.length u.number) := by
  cases hports : u.ports with
  | none =>
    rw [nsPacketParseTransport_message p before u payload hports]
    exact SameLayers.refl _
  | some ports =>
    rw [nsPacketParseTransport_ports p before u payload hports]
    exact (setPayload_keeps _ _ _).trans (dnsIfApplicable_keeps _ _ _ _ _)

end Transport

/-! ### The payload view -/

/-- The payload view starts here and shows exactly these bytes. -/
structure ShowsPayload (pkt : Packet) (offset : ℕ) (bytes : Bytes) : Prop where
  payload : pkt.payload = some offset
  payloadLength : pkt.payloadLength = bytes.length
  payloadBytes : pkt.payloadBytes = bytes

theorem ShowsPayload.dnsIfApplicable {p : Packet} {k : ℕ} {payload : Bytes} (h : ShowsPayload p k payload) (data : Bytes) (offset : ℕ)
    (srcPort dstPort : UInt16) : ShowsPayload (nsPacketParseDnsIfApplicable p data offset srcPort dstPort) k payload := by
  unfold nsPacketParseDnsIfApplicable
  split
  · exact h
  · split
    · exact h
    · split
      · exact ⟨h.payload,h.payloadLength,h.payloadBytes⟩
      · exact h

theorem setPayload_shows {p : Packet} {before rest : Bytes} (h : p.rawData = before ++ rest) :
    ShowsPayload (nsPacketSetPayload p (before ++ rest).length before.length) before.length rest := by
  have hle : ¬before.length > (before ++ rest).length := by simp
  have hlength : (before ++ rest).length - before.length = rest.length := by simp
  unfold nsPacketSetPayload
  rw [if_neg hle, hlength]
  refine ⟨rfl,rfl,?_⟩
  simp only [Packet.payloadBytes, h]
  rw [chunk, List.drop_left, List.take_length]

/-! ## Frames -/

/-- The layers of a packet are those of an IP frame, and behind a port header its payload is
that of the frame. -/
structure DecodesIp (f : IpFrame) (pkt : Packet) : Prop where
  malformed : pkt.malformed = false
  hasEth : pkt.hasEth = true
  eth : pkt.eth = f.link.info f.ip.ethertype
  networkProto : pkt.networkProto = f.ip.proto
  net : pkt.net = f.ip.union f.upper.number
  transportProto : pkt.transportProto = f.upper.proto
  transport : pkt.transport = f.upper.union
  payload : f.upper.ports.isSome = true → ShowsPayload pkt f.headers.length f.payload

/-- The layers of a packet are those of an ARP frame. -/
structure DecodesArp (f : ArpFrame) (pkt : Packet) : Prop where
  malformed : pkt.malformed = false
  hasEth : pkt.hasEth = true
  eth : pkt.eth = f.link.info ethertypeArp
  networkProto : pkt.networkProto = .arp
  net : pkt.net = .arp f.arp
  transportProto : pkt.transportProto = .unknown

def Decodes : Frame → Packet → Prop
  | .ip f => DecodesIp f
  | .arp f => DecodesArp f

/-- The packet of an IP frame when its upper layer is reached. -/
def networkPacket (f : IpFrame) (c : Capture) : Packet :=
  nsPacketSetPayload
    { linkPacket c (f.link.info f.ip.ethertype) (f.link.encode f.ip.ethertype).length with
      net := f.ip.union f.upper.number, networkProto := f.ip.proto }
    f.encode.length (f.link.encode f.ip.ethertype ++ f.ip.encode f.upper.number).length

theorem ipFrame_packet (f : IpFrame) {c : Capture} (hl : c.linkType = .ethernet) (hd : c.data = f.encode) :
    c.packet = nsPacketParseTransport (networkPacket f c) f.encode
      (f.link.encode f.ip.ethertype ++ f.ip.encode f.upper.number).length f.upper.number := by
  have hne : f.ip.ethertype ≠ ethertypeVlan := by
    cases f.ip with
    | ipv4 | ipv6 => simp only [IpHeader.ethertype]; decide
  have hm : nsParseEthernet c.data = .ok (f.link.info f.ip.ethertype,(f.link.encode f.ip.ethertype).length) := by
    rw [hd, IpFrame.encode, nsParseEthernet_encode f.link hne]
  rw [packet_of_ethernet hl hm, hd]
  exact nsPacketParseNetwork_encode _ (f.link.encode f.ip.ethertype) f.ip f.upper (f.upper.encode ++ f.payload)

theorem networkPacket_layers (f : IpFrame) (c : Capture) :
    (networkPacket f c).malformed = false ∧ (networkPacket f c).hasEth = true ∧
      (networkPacket f c).eth = f.link.info f.ip.ethertype ∧ (networkPacket f c).networkProto = f.ip.proto ∧
      (networkPacket f c).net = f.ip.union f.upper.number ∧ (networkPacket f c).rawData = c.data := by
  simp [networkPacket, linkPacket, nsPacketSetPayload_eq, initialPacket]

theorem ipFrame_decodes (f : IpFrame) {c : Capture} (hl : c.linkType = .ethernet) (hd : c.data = f.encode) :
    DecodesIp f c.packet := by
  obtain ⟨hmalformed,hhasEth,heth,hproto,hnet,hraw⟩ := networkPacket_layers f c
  have hencode : f.encode =
      (f.link.encode f.ip.ethertype ++ f.ip.encode f.upper.number) ++ (f.upper.encode ++ f.payload) := by
    rw [IpFrame.encode, List.append_assoc]
  have hlayers := nsPacketParseTransport_encode (networkPacket f c)
    (f.link.encode f.ip.ethertype ++ f.ip.encode f.upper.number) f.upper f.payload
  rw [ipFrame_packet f hl hd, hencode]
  refine ⟨hlayers.malformed.trans hmalformed,hlayers.hasEth.trans hhasEth,hlayers.eth.trans heth,
    hlayers.networkProto.trans hproto,hlayers.net.trans hnet,hlayers.transportProto,hlayers.transport,?_⟩
  intro hports
  obtain ⟨ports,hports⟩ := Option.isSome_iff_exists.mp hports
  rw [nsPacketParseTransport_ports _ _ _ _ hports, ← List.append_assoc _ f.upper.encode]
  refine ShowsPayload.dnsIfApplicable (setPayload_shows ?_) _ _ _ _
  rw [List.append_assoc _ f.upper.encode, ← hencode, ← hd]
  exact hraw

theorem arpFrame_decodes (f : ArpFrame) {c : Capture} (hl : c.linkType = .ethernet) (hd : c.data = f.encode) :
    DecodesArp f c.packet := by
  have hm : nsParseEthernet c.data = .ok (f.link.info ethertypeArp,(f.link.encode ethertypeArp).length) := by
    rw [hd, ArpFrame.encode, nsParseEthernet_encode f.link (by decide)]
  have harp : nsParseArp (c.data.drop (f.link.encode ethertypeArp).length) = .ok f.arp := by
    rw [hd, ArpFrame.encode, List.drop_left, nsParseArp_encode]
  have hpkt : c.packet = nsPacketParseArp (linkPacket c (f.link.info ethertypeArp) (f.link.encode ethertypeArp).length)
      c.data (f.link.encode ethertypeArp).length := packet_of_ethernet hl hm
  rw [hpkt]
  simp only [nsPacketParseArp, harp, linkPacket, nsPacketSetPayload_eq]
  exact ⟨rfl,rfl,rfl,rfl,rfl,rfl⟩

/-- Parsing the serialisation of a frame gives back every field of the frame. -/
theorem nsPacketParse_encode (f : Frame) (originalLength : ℕ) (timestamp : Timestamp) (number : UInt64) :
    Decodes f (nsPacketParse f.encode originalLength timestamp number .ethernet) := by
  cases f with
  | ip f => exact ipFrame_decodes f (c := ⟨f.encode,originalLength,timestamp,number,.ethernet⟩) rfl rfl
  | arp f => exact arpFrame_decodes f (c := ⟨f.encode,originalLength,timestamp,number,.ethernet⟩) rfl rfl

end Netscope.RoundTrip
