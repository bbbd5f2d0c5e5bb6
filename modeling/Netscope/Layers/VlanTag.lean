import Netscope.Checked.Packet
import Netscope.Layers.PayloadView
import Netscope.Library.RelatedRuns

/-! # Frames with an 802.1Q tag

A tag between the addresses and the ethertype moves everything above the link layer by
four bytes. The walk is followed on both frames side by side: what a parser sees behind
its pointer is the same, and the absolute offsets differ by four throughout.
-/
namespace Netscope.VlanTag
open ByteString PartialMemory RelatedRuns ExtensionChain Checked

/-- The length of the two addresses. -/
abbrev addressesLength : ℕ := 12

abbrev tagLength : ℕ := 4

/-- The frame with a tag behind its two addresses. -/
def tagged (frame : Bytes) (tag : UInt16) : Bytes :=
  frame.take addressesLength ++ [0x81,0x00] ++ be16 tag ++ frame.drop addressesLength

/-- All layers above the link layer agree, also what a failing parser has left of them,
and the payload of the second packet starts `tagLength` bytes later. -/
structure Moved (p q : Checked.Packet) : Prop where
  hasEth : q.layers.hasEth = p.layers.hasEth
  networkProto : q.layers.networkProto = p.layers.networkProto
  net : q.layers.net = p.layers.net
  transportProto : q.layers.transportProto = p.layers.transportProto
  transport : q.layers.transport = p.layers.transport
  hasDns : q.layers.hasDns = p.layers.hasDns
  dns : q.dns = p.dns
  malformed : q.layers.malformed = p.layers.malformed
  malformedReason : q.layers.malformedReason = p.layers.malformedReason
  behind : ∀ k, p.layers.payload = some k → addressesLength ≤ k
  payload : q.layers.payload = p.layers.payload.map (· + tagLength)
  payloadLength : q.layers.payloadLength = p.layers.payloadLength

section Updates
variable {p q : Checked.Packet} (h : Moved p q)
include h

theorem moved_markMalformed (reason : MalformedReason) :
    Moved (Checked.nsPacketMarkMalformed p reason) (Checked.nsPacketMarkMalformed q reason) :=
  { h with malformed := rfl, malformedReason := rfl }

theorem moved_net (net : NetUnion) :
    Moved { p with layers := { p.layers with net := net } } { q with layers := { q.layers with net := net } } :=
  { h with net := rfl }

theorem moved_networkProto (proto : Proto) :
    Moved { p with layers := { p.layers with networkProto := proto } } { q with layers := { q.layers with networkProto := proto } } :=
  { h with networkProto := rfl }

theorem moved_transport (transport : TransportUnion) :
    Moved { p with layers := { p.layers with transport := transport } }
      { q with layers := { q.layers with transport := transport } } :=
  { h with transport := rfl }

theorem moved_transportProto (proto : Proto) :
    Moved { p with layers := { p.layers with transportProto := proto } }
      { q with layers := { q.layers with transportProto := proto } } :=
  { h with transportProto := rfl }

theorem moved_dns (dns : Info) : Moved { p with dns := dns } { q with dns := dns } := { h with dns := rfl }

theorem moved_hasDns : Moved { p with layers := { p.layers with hasDns := true } } { q with layers := { q.layers with hasDns := true } } :=
  { h with hasDns := rfl }

end Updates

section Walk
variable {a b : Bytes} (hab : Relocated a b addressesLength tagLength) {p q : Checked.Packet} (h : Moved p q) {k : ℕ}
  (hk : addressesLength ≤ k)
include hab h hk

theorem setPayload_moved :
    Related Moved (Checked.nsPacketSetPayload p a a.length k) (Checked.nsPacketSetPayload q b b.length (k + tagLength)) := by
  unfold Checked.nsPacketSetPayload
  by_cases hgt : k > a.length
  · rw [if_pos hgt, if_pos (by rw [hab.length]; omega)]
    exact related_ok { h with behind := nofun, payload := rfl, payloadLength := rfl }
  · rw [if_neg hgt, if_neg (by rw [hab.length]; omega), advance_ok (by omega), advance_ok (by rw [hab.length]; omega),
      ok_bind, ok_bind, hab.sizeSub]
    apply related_bind_same
    intro length
    have hbehind : ∀ i, some k = some i → addressesLength ≤ i := by
      intro i hi
      obtain rfl := Option.some.inj hi
      exact hk
    exact related_ok { h with behind := hbehind, payload := rfl, payloadLength := rfl }

theorem dnsIfApplicable_moved (srcPort dstPort : UInt16) :
    Related Moved (Checked.nsPacketParseDnsIfApplicable p a a.length k srcPort dstPort)
      (Checked.nsPacketParseDnsIfApplicable q b b.length (k + tagLength) srcPort dstPort) := by
  unfold Checked.nsPacketParseDnsIfApplicable
  apply related_ite
  · intro _
    exact related_ok h
  · intro _
    by_cases hgt : k > a.length
    · rw [if_pos hgt, if_pos (by rw [hab.length]; omega)]
      exact related_ok h
    · rw [if_neg hgt, if_neg (by rw [hab.length]; omega), h.dns]
      refine hab.parse hk ?_
      rintro ⟨status,dns⟩
      apply related_ite
      · intro _
        exact related_ok (moved_hasDns (moved_dns h dns))
      · intro _
        exact related_ok (moved_dns h dns)

/-- What follows an accepted port header. -/
theorem application_moved (headerLen : ℕ) (srcPort dstPort : UInt16) :
    Related Moved
      (do let appOffset ← sizeAdd k headerLen
          let out ← Checked.nsPacketSetPayload p a a.length appOffset
          Checked.nsPacketParseDnsIfApplicable out a a.length appOffset srcPort dstPort)
      (do let appOffset ← sizeAdd (k + tagLength) headerLen
          let out ← Checked.nsPacketSetPayload q b b.length appOffset
          Checked.nsPacketParseDnsIfApplicable out b b.length appOffset srcPort dstPort) := by
  refine Related.bind (related_sizeAdd k tagLength headerLen) ?_
  rintro i j ⟨rfl,hi⟩
  refine Related.bind (setPayload_moved hab h (hk.trans hi)) ?_
  intro p' q' h'
  exact dnsIfApplicable_moved hab h' (hk.trans hi) srcPort dstPort

theorem parseTcpLayer_moved :
    Related Moved (parseTcpLayer p a a.length k) (parseTcpLayer q b b.length (k + tagLength)) := by
  unfold parseTcpLayer
  rw [h.transport]
  refine hab.parse hk ?_
  rintro ⟨status,info,headerLen⟩
  have ht := moved_transport h (.tcp info)
  apply related_ite
  · intro _
    apply related_bind_same
    intro headerLen
    exact application_moved hab (moved_transportProto ht .tcp) hk headerLen info.sourcePort info.destinationPort
  · intro _
    apply related_ite
    · intro _
      exact related_ok (moved_markMalformed ht .tcpTruncated)
    · intro _
      exact related_ok (moved_markMalformed ht .tcpInconsistent)

theorem parseUdpLayer_moved :
    Related Moved (parseUdpLayer p a a.length k) (parseUdpLayer q b b.length (k + tagLength)) := by
  unfold parseUdpLayer
  rw [h.transport]
  refine hab.parse hk ?_
  rintro ⟨status,info⟩
  have ht := moved_transport h (.udp info)
  apply related_ite
  · intro _
    exact application_moved hab (moved_transportProto ht .udp) hk 8 info.sourcePort info.destinationPort
  · intro _
    apply related_ite
    · intro _
      exact related_ok (moved_markMalformed ht .udpTruncated)
    · intro _
      exact related_ok (moved_markMalformed ht .udpInconsistent)

theorem parseIcmpLayer_moved :
    Related Moved (parseIcmpLayer p a a.length k) (parseIcmpLayer q b b.length (k + tagLength)) := by
  unfold parseIcmpLayer
  rw [h.transport]
  refine hab.parse hk ?_
  rintro ⟨status,info⟩
  have ht := moved_transport h (.icmp info)
  apply related_ite
  · intro _
    exact related_ok (moved_transportProto ht .icmp)
  · intro _
    exact related_ok (moved_markMalformed ht .icmpTruncated)

theorem parseIcmpv6Layer_moved :
    Related Moved (parseIcmpv6Layer p a a.length k) (parseIcmpv6Layer q b b.length (k + tagLength)) := by
  unfold parseIcmpv6Layer
  rw [h.transport]
  refine hab.parse hk ?_
  rintro ⟨status,info⟩
  have ht := moved_transport h (.icmpv6 info)
  apply related_ite
  · intro _
    exact related_ok (moved_transportProto ht .icmpv6)
  · intro _
    exact related_ok (moved_markMalformed ht .icmpv6Truncated)

theorem nsPacketParseTransport_moved (proto : UInt8) :
    Related Moved (Checked.nsPacketParseTransport p a a.length k proto)
      (Checked.nsPacketParseTransport q b b.length (k + tagLength) proto) := by
  unfold Checked.nsPacketParseTransport
  apply related_ite
  · intro _
    exact parseTcpLayer_moved hab h hk
  · intro _
    apply related_ite
    · intro _
      exact parseUdpLayer_moved hab h hk
    · intro _
      apply related_ite
      · intro _
        exact parseIcmpLayer_moved hab h hk
      · intro _
        apply related_ite
        · intro _
          exact parseIcmpv6Layer_moved hab h hk
        · intro _
          exact related_ok h

theorem nsPacketParseIpv4_moved :
    Related Moved (Checked.nsPacketParseIpv4 p a a.length k) (Checked.nsPacketParseIpv4 q b b.length (k + tagLength)) := by
  unfold Checked.nsPacketParseIpv4
  rw [h.net]
  refine hab.parse hk ?_
  rintro ⟨status,info,headerLen⟩
  have hnet := moved_net h (.ipv4 info)
  apply related_ite
  · intro _
    exact related_ok (moved_markMalformed hnet .ipv4Truncated)
  · intro _
    apply related_ite
    · intro _
      exact related_ok (moved_markMalformed hnet .ipv4Inconsistent)
    · intro _
      apply related_bind_same
      intro headerLen
      refine Related.bind (related_sizeAdd k tagLength headerLen) ?_
      rintro i j ⟨rfl,hi⟩
      refine Related.bind (setPayload_moved hab (moved_networkProto hnet .ipv4) (hk.trans hi)) ?_
      intro p' q' h'
      apply related_ite
      · intro _
        exact related_ok h'
      · intro _
        exact nsPacketParseTransport_moved hab h' (hk.trans hi) info.protocol

theorem nsPacketParseArp_moved :
    Related Moved (Checked.nsPacketParseArp p a a.length k) (Checked.nsPacketParseArp q b b.length (k + tagLength)) := by
  unfold Checked.nsPacketParseArp
  rw [h.net]
  refine hab.parse hk ?_
  rintro ⟨status,info⟩
  have hnet := moved_net h (.arp info)
  dsimp only
  split
  · exact setPayload_moved hab (moved_networkProto hnet .arp) hk
  · split
    · exact setPayload_moved hab (moved_markMalformed hnet .arpTruncated) hk
    · exact setPayload_moved hab hnet hk

omit h in
/-- The walk over the extension headers uses absolute offsets only. -/
theorem skipExtensionHeaders_moved (budget : ℕ) (nextHeader : UInt8) :
    Netscope.skipExtensionHeaders b budget (k + tagLength) nextHeader =
      ((Netscope.skipExtensionHeaders a budget k nextHeader).1,
        (Netscope.skipExtensionHeaders a budget k nextHeader).2.1 + tagLength,
        (Netscope.skipExtensionHeaders a budget k nextHeader).2.2) := by
  induction budget generalizing k nextHeader with
  | zero => rfl
  | succ budget ih =>
    have hlength : extensionLength b (k + tagLength) nextHeader = extensionLength a k nextHeader := by
      unfold extensionLength
      rw [Nat.add_right_comm, hab.u8 (by omega)]
    cases hlen : extensionLength a k nextHeader with
    | none =>
      have hupper := extensionLength_eq_none.mp hlen
      rw [skipExtensionHeaders_isUpper budget hupper, skipExtensionHeaders_isUpper budget hupper]
    | some len =>
      rw [skipExtensionHeaders_step budget (hlength.trans hlen), skipExtensionHeaders_step budget hlen, hab.length,
        hab.u8 hk]
      by_cases hin : k + len ≤ a.length
      · rw [if_pos hin, if_pos (by omega), Nat.add_right_comm]
        exact ih (by omega) (u8 a k)
      · rw [if_neg hin, if_neg (by omega)]

variable (hb : b.length < 2 ^ 64)
include hb

omit h in
theorem nsIpv6SkipExtensionHeaders_moved (nextHeader : UInt8) :
    Related (fun r s => s = (r.1,r.2.1 + tagLength,r.2.2) ∧ addressesLength ≤ r.2.1)
      (Checked.nsIpv6SkipExtensionHeaders a a.length k nextHeader)
      (Checked.nsIpv6SkipExtensionHeaders b b.length (k + tagLength) nextHeader) := by
  have hlength := hab.length
  have hle := (skipExtensionHeaders_walked a ipv6MaxExtensionHeaders k nextHeader).start_le
  unfold Checked.nsIpv6SkipExtensionHeaders
  rw [skipExtensionHeaders_eq hb, skipExtensionHeaders_eq (by omega), skipExtensionHeaders_moved hab hk]
  exact related_ok ⟨rfl,hk.trans hle⟩

theorem nsPacketParseIpv6_moved :
    Related Moved (Checked.nsPacketParseIpv6 p a a.length k) (Checked.nsPacketParseIpv6 q b b.length (k + tagLength)) := by
  unfold Checked.nsPacketParseIpv6
  rw [h.net]
  refine hab.parse hk ?_
  rintro ⟨status,info,headerLen⟩
  have hnet := moved_net h (.ipv6 info)
  have hproto := moved_networkProto hnet .ipv6
  apply related_ite
  · intro _
    exact related_ok (moved_markMalformed hnet .ipv6Truncated)
  · intro _
    apply related_ite
    · intro _
      exact related_ok (moved_markMalformed hnet .ipv6Inconsistent)
    · intro _
      apply related_bind_same
      intro headerLen
      refine Related.bind (related_sizeAdd k tagLength headerLen) ?_
      rintro i j ⟨rfl,hi⟩
      refine Related.bind (nsIpv6SkipExtensionHeaders_moved hab (hk.trans hi) hb info.nextHeader) ?_
      rintro ⟨accepted,extOffset,nextHeader⟩ _ ⟨rfl,hext⟩
      apply related_ite
      · intro _
        exact setPayload_moved hab (moved_markMalformed hproto .ipv6ChainInvalid) hext
      · intro _
        refine Related.bind (setPayload_moved hab hproto hext) ?_
        intro p' q' h'
        exact nsPacketParseTransport_moved hab h' hext nextHeader

theorem nsPacketParseNetwork_moved (ethertype : UInt16) :
    Related Moved (Checked.nsPacketParseNetwork p a a.length k ethertype)
      (Checked.nsPacketParseNetwork q b b.length (k + tagLength) ethertype) := by
  unfold Checked.nsPacketParseNetwork
  apply related_ite
  · intro _
    exact nsPacketParseIpv4_moved hab h hk
  · intro _
    apply related_ite
    · intro _
      exact nsPacketParseIpv6_moved hab h hk hb
    · intro _
      apply related_ite
      · intro _
        exact nsPacketParseArp_moved hab h hk
      · intro _
        exact related_ok h

end Walk

/-! ## The link layer -/

section Frame
variable {frame : Bytes} (tag : UInt16) (hlen : 14 ≤ frame.length)
include hlen

theorem addresses_length : (frame.take addressesLength).length = 12 :=
  List.length_take_of_le (show 12 ≤ frame.length by omega)

theorem tagged_length : (tagged frame tag).length = frame.length + 4 := by
  simp only [tagged, List.length_append, addresses_length hlen, List.length_cons, List.length_nil, be16_length,
    List.length_drop, addressesLength]
  omega

theorem tagged_relocated : Relocated frame (tagged frame tag) addressesLength tagLength where
  length := tagged_length tag hlen
  tail := by
    have hfront : (frame.take addressesLength ++ [0x81,0x00] ++ be16 tag).length = addressesLength + tagLength := by
      simp only [List.length_append, addresses_length hlen, List.length_cons, List.length_nil, be16_length, addressesLength,
        tagLength]
    rw [tagged, ← hfront, List.drop_left]

theorem slice_tagged {k n : ℕ} (hk : k + n ≤ 12) : slice (tagged frame tag) k n = slice frame k n := by
  have htake : frame.take addressesLength <+: tagged frame tag := by
    simp only [tagged, List.append_assoc]
    exact List.prefix_append _ _
  have hin : k + n ≤ (frame.take addressesLength).length := by rwa [addresses_length hlen]
  rw [slice_stable htake hin, slice_stable (List.take_prefix addressesLength frame) hin]

theorem u16_tagged_type : u16 (tagged frame tag) 12 = ethertypeVlan := by
  have htake := addresses_length hlen
  simp only [tagged, List.append_assoc]
  rw [u16_skip _ htake.le, htake]
  change (0x81 : UInt8).toUInt16 <<< 8 ||| (0x00 : UInt8).toUInt16 = ethertypeVlan
  decide

theorem u16_tagged_tag : u16 (tagged frame tag) 14 = tag := by
  have htake := addresses_length hlen
  simp only [tagged, List.append_assoc]
  rw [u16_skip _ (by omega), htake]
  exact u16_be16 tag (frame.drop addressesLength)

theorem u16_tagged_inner : u16 (tagged frame tag) 16 = u16 frame 12 := by
  have hab := tagged_relocated tag hlen
  rw [u16, u16, show u8 (tagged frame tag) 16 = u8 frame 12 from hab.u8 le_rfl,
    show u8 (tagged frame tag) (16 + 1) = u8 frame (12 + 1) from hab.u8 (Nat.le_succ 12)]

theorem nsParseEthernet_tagged :
    Netscope.nsParseEthernet (tagged frame tag) =
      .ok (⟨slice frame 0 6,slice frame 6 6,u16 frame 12,true,tag &&& 0x0FFF⟩,14 + tagLength) := by
  refine nsParseEthernet_eq_ok_iff.mpr (.inl ⟨?_,u16_tagged_type tag hlen,?_⟩)
  · rw [tagged_length tag hlen]
    omega
  · rw [slice_tagged tag hlen (Nat.le_add_left 6 6), slice_tagged tag hlen le_rfl, u16_tagged_inner tag hlen,
      u16_tagged_tag tag hlen, tagLength]

omit hlen in
theorem vlanId_toNat : (tag &&& 0x0FFF).toNat = tag.toNat % 4096 := by
  rw [UInt16.toNat_and]
  exact Nat.and_two_pow_sub_one_eq_mod tag.toNat 12

end Frame

/-! ## Both walks -/

theorem checkedEthernet_ok {data : Bytes} (hfits : data.length < 2 ^ 64) {eth : EthInfo} {offset : ℕ}
    (hm : Netscope.nsParseEthernet data = .ok (eth,offset)) (out : EthInfo) :
    Checked.nsParseEthernet data data.length out = .ok (.ok,eth,some offset) := by
  obtain ⟨out',he⟩ := nsParseEthernet_eq hfits out
  rw [he, hm, outcome]

theorem checkedSetPayload_ok {data : Bytes} {k : ℕ} (h : k ≤ data.length) (out : Checked.Packet) :
    Checked.nsPacketSetPayload out data data.length k =
      .ok { out with layers := { out.layers with payload := some k, payloadLength := data.length - k } } := by
  unfold Checked.nsPacketSetPayload
  rw [if_neg (by omega), advance_ok h, sizeSub_ok h]
  rfl

section Frames
variable {frame frame' : Buffer} {tag : UInt16} (hlen : 14 ≤ frame.bytes.length)
  (htype : u16 frame.bytes 12 ≠ ethertypeVlan) (htag : frame'.bytes = tagged frame.bytes tag)
include hlen htype

theorem nsParseEthernet_untagged :
    Netscope.nsParseEthernet frame.bytes =
      .ok (⟨slice frame.bytes 0 6,slice frame.bytes 6 6,u16 frame.bytes 12,false,0⟩,14) :=
  nsParseEthernet_eq_ok_iff.mpr (.inr ⟨hlen,htype,rfl⟩)

include htag

theorem nsPacketParse_moved (n n' : ℕ) (t t' : Timestamp) (i i' : UInt64) :
    Related Moved (Checked.nsPacketParse frame.bytes frame.bytes.length n t i .ethernet)
      (Checked.nsPacketParse frame'.bytes frame'.bytes.length n' t' i' .ethernet) := by
  have hab : Relocated frame.bytes frame'.bytes addressesLength tagLength := by
    rw [htag]
    exact tagged_relocated tag hlen
  have hm := nsParseEthernet_untagged hlen htype
  have hm' := nsParseEthernet_tagged tag hlen
  have hlength' := hab.length
  rw [← htag] at hm'
  unfold Checked.nsPacketParse
  simp only [ne_eq, not_true_eq_false, ↓reduceIte, checkedEthernet_ok frame.fits hm, checkedEthernet_ok frame'.fits hm',
    ok_bind, use_some]
  rw [checkedSetPayload_ok hlen, checkedSetPayload_ok (by omega), ok_bind, ok_bind]
  refine nsPacketParseNetwork_moved hab ?_ (Nat.le_add_right 12 2) frame'.fits _
  refine ⟨rfl,rfl,rfl,rfl,rfl,rfl,rfl,rfl,rfl,?_,rfl,?_⟩
  · intro k hk
    obtain rfl := Option.some.inj hk
    exact Nat.le_add_right 12 2
  · change frame'.bytes.length - (14 + tagLength) = frame.bytes.length - 14
    rw [hlength', Nat.add_sub_add_right]

end Frames

/-- The packets `p` of a frame and `q` of the frame with a tag. -/
structure Transparent (tag : UInt16) (p q : Checked.Packet) : Prop extends Moved p q where
  ethernet : p.layers.hasEth = true
  source : q.layers.eth.source = p.layers.eth.source
  destination : q.layers.eth.destination = p.layers.eth.destination
  ethertype : q.layers.eth.ethertype = p.layers.eth.ethertype
  untagged : p.layers.eth.hasVlan = false
  hasVlan : q.layers.eth.hasVlan = true
  vlanId : q.layers.eth.vlanId.toNat = tag.toNat % 4096
  payloadBytes : q.layers.payloadBytes = p.layers.payloadBytes

theorem Moved.payloadBytes {a b : Bytes} (hab : Relocated a b addressesLength tagLength) {p q : Checked.Packet}
    (h : Moved p q) (hp : p.layers.rawData = a) (hq : q.layers.rawData = b) :
    q.layers.payloadBytes = p.layers.payloadBytes := by
  unfold Packet.payloadBytes
  rw [h.payload, hp, hq]
  cases hk : p.layers.payload with
  | none => rfl
  | some k =>
    rw [Option.map_some]
    dsimp only
    rw [h.payloadLength, hab.chunk (h.behind k hk)]

/-- What the walk reports of the link layer and the captured bytes. -/
theorem represents_link {c : Capture} {out : Checked.Packet} (hrep : Represents c.packet out) {eth : EthInfo} {offset : ℕ}
    (hl : c.linkType = .ethernet) (hm : Netscope.nsParseEthernet c.data = .ok (eth,offset)) :
    out.layers.hasEth = true ∧ out.layers.eth = eth ∧ out.layers.rawData = c.data := by
  obtain ⟨hasEth,heth⟩ := PayloadView.packet_link hl hm
  have hraw := PayloadView.packet_rawData c
  refine ⟨?_,(hrep.eth hasEth).trans heth,?_⟩
  · rw [hrep.rest] at hasEth
    exact hasEth
  · rw [hrep.rest] at hraw
    exact hraw

/-- A tag behind the addresses of an untagged frame changes the tag fields alone. -/
theorem nsPacketParse_tagged (frame frame' : Buffer) (tag : UInt16) (hlen : 14 ≤ frame.bytes.length)
    (htype : u16 frame.bytes 12 ≠ ethertypeVlan) (htag : frame'.bytes = tagged frame.bytes tag) (n n' : ℕ)
    (t t' : Timestamp) (i i' : UInt64) :
    ∃ p q, Checked.nsPacketParse frame.bytes frame.bytes.length n t i .ethernet = .ok p ∧
      Checked.nsPacketParse frame'.bytes frame'.bytes.length n' t' i' .ethernet = .ok q ∧ Transparent tag p q := by
  obtain ⟨p,hp,hrep⟩ := nsPacketParse_represents frame.fits n t i .ethernet
  obtain ⟨q,hq,hrep'⟩ := nsPacketParse_represents frame'.fits n' t' i' .ethernet
  have hab : Relocated frame.bytes frame'.bytes addressesLength tagLength := by
    rw [htag]
    exact tagged_relocated tag hlen
  have hmoved := nsPacketParse_moved hlen htype htag n n' t t' i i' p q hp hq
  have hm' := nsParseEthernet_tagged tag hlen
  rw [← htag] at hm'
  obtain ⟨hasEth,heth,hraw⟩ := represents_link (c := ⟨frame.bytes,n,t,i,.ethernet⟩) hrep rfl
    (nsParseEthernet_untagged hlen htype)
  obtain ⟨_,heth',hraw'⟩ := represents_link (c := ⟨frame'.bytes,n',t',i',.ethernet⟩) hrep' rfl hm'
  refine ⟨p,q,hp,hq,⟨hmoved,hasEth,?_,?_,?_,?_,?_,?_,hmoved.payloadBytes hab hraw hraw'⟩⟩
  · rw [heth, heth']
  · rw [heth, heth']
  · rw [heth, heth']
  · rw [heth]
  · rw [heth']
  · rw [heth']
    exact vlanId_toNat tag

/-- A DNS query for the root in UDP, in IPv6 behind a Hop-by-Hop Options header. -/
def queryFrame : Buffer where
  bytes := [1,2,3,4,5,6,7,8,9,10,11,12,0x86,0xDD,
    0x60,0,0,0,0,33,0,64,
    0x20,1,0x0d,0xb8,0,0,0,0,0,0,0,0,0,0,0,1,
    0x20,1,0x0d,0xb8,0,0,0,0,0,0,0,0,0,0,0,2,
    17,0,1,4,0,0,0,0,
    0x9C,0x40,0,53,0,25,0,0,
    0x12,0x34,1,0,0,1,0,0,0,0,0,0,0,0,1,0,1]
  fits := by simp

def queryFrameTagged : Buffer := ⟨tagged queryFrame.bytes 0xE064,by simp [queryFrame, tagged, be16]⟩

theorem nsPacketParse_tagged_query :
    14 ≤ queryFrame.bytes.length ∧ u16 queryFrame.bytes 12 ≠ ethertypeVlan ∧
      (Netscope.nsPacketParse queryFrame.bytes 87 ⟨0,0⟩ 1 .ethernet).hasDns = true ∧
      ∃ p q, Checked.nsPacketParse queryFrame.bytes queryFrame.bytes.length 87 ⟨0,0⟩ 1 .ethernet = .ok p ∧
        Checked.nsPacketParse queryFrameTagged.bytes queryFrameTagged.bytes.length 91 ⟨0,0⟩ 2 .ethernet = .ok q ∧
        Transparent 0xE064 p q := by
  have hlen : 14 ≤ queryFrame.bytes.length := by decide
  have htype : u16 queryFrame.bytes 12 ≠ ethertypeVlan := by decide
  have hdns : (Netscope.nsPacketParse queryFrame.bytes 87 ⟨0,0⟩ 1 .ethernet).hasDns = true := by decide +kernel
  exact ⟨hlen,htype,hdns,nsPacketParse_tagged queryFrame queryFrameTagged 0xE064 hlen htype rfl 87 91 ⟨0,0⟩ ⟨0,0⟩ 1 2⟩

end Netscope.VlanTag
