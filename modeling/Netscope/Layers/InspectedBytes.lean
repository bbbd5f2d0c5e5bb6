import Netscope.Layers.LayerTags
import Netscope.Layers.PayloadView

/-! # The bytes that decide a packet

The packet of a frame is decided by the first bytes of the frame and its length: by the
headers, by the echo fields of ICMP, and by everything only where the frame is malformed
or one of the ports is that of DNS.
-/
namespace Netscope.InspectedBytes
open ByteString Layers LayerTags PayloadView ExtensionChain

/-! ## Agreement of bytes -/

/-- Sequences of one length that agree on their first `k` bytes. -/
structure Agree (k : ℕ) (a b : Bytes) : Prop where
  length : b.length = a.length
  bytes : ∀ i < k, u8 b i = u8 a i

section Agree
variable {k : ℕ} {a b : Bytes} (h : Agree k a b)
include h

theorem Agree.drop {n off : ℕ} (hn : off + n ≤ k) : Agree n (a.drop off) (b.drop off) where
  length := by rw [List.length_drop, List.length_drop, h.length]
  bytes i hi := by rw [u8_drop, u8_drop, h.bytes (off + i) (by omega)]

theorem Agree.u16 {i : ℕ} (hi : i + 2 ≤ k) : u16 b i = u16 a i := by
  simp only [ByteString.u16, h.bytes i (by omega), h.bytes (i + 1) (by omega)]

theorem Agree.u32 {i : ℕ} (hi : i + 4 ≤ k) : u32 b i = u32 a i := by
  simp only [ByteString.u32, h.bytes i (by omega), h.bytes (i + 1) (by omega), h.bytes (i + 2) (by omega),
    h.bytes (i + 3) (by omega)]

theorem Agree.slice {i n : ℕ} (hi : i + n ≤ k) : slice b i n = slice a i n := by
  ext j hj
  simp only [ByteString.slice, Vector.getElem_ofFn, h.bytes (i + j) (by omega)]

/-- Sequences that agree everywhere are equal. -/
theorem Agree.eq (hk : a.length ≤ k) : b = a := by
  apply List.ext_getElem h.length
  intro i hb ha
  rw [← u8_eq_getElem hb, ← u8_eq_getElem ha]
  exact h.bytes i (by omega)

end Agree

/-! ## Headers -/

section Parsers
variable {k : ℕ} {a b : Bytes} (h : Agree k a b)
include h

theorem nsParseEthernet_agree {eth : EthInfo} {n : ℕ} (hm : nsParseEthernet a = .ok (eth,n)) (hk : n ≤ k) :
    nsParseEthernet b = .ok (eth,n) := by
  rw [nsParseEthernet_eq_ok_iff] at hm ⊢
  rcases hm with ⟨hlen,hvlan,hr⟩ | ⟨hlen,hvlan,hr⟩
  · left
    obtain ⟨rfl,rfl⟩ := Prod.mk.inj hr
    simp (disch := omega) only [h.length, h.u16, h.slice, hlen, hvlan, and_self]
  · right
    obtain ⟨rfl,rfl⟩ := Prod.mk.inj hr
    simp (disch := omega) only [h.length, h.u16, h.slice, hlen, hvlan, ne_eq, not_false_eq_true, and_self]

omit h in
theorem nsParseEthernet_offset {eth : EthInfo} {n : ℕ} (hm : nsParseEthernet a = .ok (eth,n)) : n = linkLength eth := by
  rcases nsParseEthernet_eq_ok_iff.mp hm with ⟨_,_,heq⟩ | ⟨_,_,heq⟩
  · obtain ⟨rfl,rfl⟩ := Prod.ext_iff.mp heq
    rfl
  · obtain ⟨rfl,rfl⟩ := Prod.ext_iff.mp heq
    rfl

theorem nsParseArp_agree {info : ArpInfo} (hm : nsParseArp a = .ok info) (hk : 28 ≤ k) : nsParseArp b = .ok info := by
  rw [nsParseArp_eq_ok_iff] at hm ⊢
  simpa (disch := omega) only [h.length, h.u16, h.bytes, h.slice] using hm

/-- Two addresses of another kind are refused by the first eight bytes. -/
theorem nsParseArp_unsupported_agree (hm : nsParseArp a = .error .unsupported) (hk : 8 ≤ k) :
    nsParseArp b = .error .unsupported := by
  unfold nsParseArp at hm ⊢
  simp (disch := omega) only [nsBoundsCheck_eq, h.length, h.u16, h.bytes] at hm ⊢
  split at hm
  · cases hm
  · split at hm
    · rename_i hlen hfields
      rw [if_neg hlen, if_pos hfields]
    · split at hm <;> cases hm

omit h in
theorem nsParseArp_ne_malformed : nsParseArp a ≠ .error .malformed := by
  unfold nsParseArp
  split
  · nofun
  · split
    · nofun
    · split <;> nofun

theorem nsParseIpv4_agree {info : Ipv4Info} {n : ℕ} (hm : nsParseIpv4 a = .ok (info,n)) (hk : n ≤ k) :
    nsParseIpv4 b = .ok (info,n) := by
  rw [nsParseIpv4_eq_ok_iff] at hm ⊢
  obtain ⟨h20,hversion,hihl,hlen,htotal,hr⟩ := hm
  obtain ⟨rfl,rfl⟩ := Prod.mk.inj hr
  have hfive : 5 ≤ (u8 a 0 &&& 0x0F).toNat := UInt8.le_iff_toNat_le.mp hihl
  simp (disch := omega) only [h.length, h.u16, h.bytes, h.slice, ipv4Fields, h20, hversion, hihl, hlen, htotal, and_self]

theorem nsParseIpv6_agree {info : Ipv6Info} {n : ℕ} (hm : nsParseIpv6 a = .ok (info,n)) (hk : n ≤ k) :
    nsParseIpv6 b = .ok (info,n) := by
  rw [nsParseIpv6_eq_ok_iff] at hm ⊢
  obtain ⟨hlen,hversion,hr⟩ := hm
  obtain ⟨rfl,rfl⟩ := Prod.mk.inj hr
  simp (disch := omega) only [h.length, h.u32, h.u16, h.bytes, h.slice, ipv6Fields, hlen, hversion, and_self]

theorem nsParseTcp_agree {info : TcpInfo} {n : ℕ} (hm : nsParseTcp a = .ok (info,n)) (hk : n ≤ k) :
    nsParseTcp b = .ok (info,n) := by
  rw [nsParseTcp_eq_ok_iff] at hm ⊢
  obtain ⟨h20,hoffset,hlen,hr⟩ := hm
  obtain ⟨rfl,rfl⟩ := Prod.mk.inj hr
  have hfive : 5 ≤ (u8 a 12 >>> 4).toNat := UInt8.le_iff_toNat_le.mp hoffset
  simp (disch := omega) only [h.length, h.u16, h.u32, h.bytes, tcpFields, h20, hoffset, hlen, and_self]

theorem nsParseUdp_agree {info : UdpInfo} (hm : nsParseUdp a = .ok info) (hk : 8 ≤ k) : nsParseUdp b = .ok info := by
  rw [nsParseUdp_eq_ok_iff] at hm ⊢
  simpa (disch := omega) only [h.length, h.u16] using hm

/-- The bytes of an echo header that are read. -/
def echoLength (isEcho : UInt8 → Bool) (info : IcmpInfo) : ℕ := if isEcho info.type then 8 else 4

theorem parseEcho_agree {isEcho : UInt8 → Bool} {info : IcmpInfo} (hm : parseEcho isEcho a = .ok info)
    (hk : echoLength isEcho info ≤ k) : parseEcho isEcho b = .ok info := by
  rw [parseEcho_eq_ok_iff] at hm ⊢
  rcases hm with ⟨hlen,hecho,rfl⟩ | ⟨hlen,hecho,rfl⟩
  · left
    rw [echoLength, if_pos hecho] at hk
    simp (disch := omega) only [h.length, h.u16, h.bytes, hlen, hecho, and_self]
  · right
    rw [echoLength, if_neg (by simp [hecho])] at hk
    simp (disch := omega) only [h.length, h.u16, h.bytes, hlen, hecho, and_self]

omit h in
theorem eight_le_extensionLength {start len : ℕ} {nextHeader : UInt8} (hlen : extensionLength a start nextHeader = some len) :
    8 ≤ len := by
  unfold extensionLength at hlen
  split at hlen
  · obtain rfl := Option.some.inj hlen
    omega
  · split at hlen
    · obtain rfl := Option.some.inj hlen
      exact le_rfl
    · cases hlen

/-- A chain of extension headers is accepted alike when it agrees up to its end. -/
theorem skipExtensionHeaders_agree {budget start stop : ℕ} {nextHeader upper : UInt8}
    (hs : skipExtensionHeaders a budget start nextHeader = (true,stop,upper)) (hk : stop ≤ k) :
    skipExtensionHeaders b budget start nextHeader = (true,stop,upper) := by
  induction budget generalizing start nextHeader with
  | zero => exact hs
  | succ budget ih =>
    cases hlen : extensionLength a start nextHeader with
    | none =>
      have hupper := extensionLength_eq_none.mp hlen
      rw [skipExtensionHeaders_isUpper budget hupper] at hs ⊢
      exact hs
    | some len =>
      rw [skipExtensionHeaders_step budget hlen] at hs
      split at hs
      · rename_i hin
        have hstop := skipExtensionHeaders_stop a budget (start + len) (u8 a start)
        rw [hs] at hstop
        dsimp only at hstop
        have hlong := eight_le_extensionLength hlen
        have hlen' : extensionLength b start nextHeader = some len := by
          unfold extensionLength at hlen ⊢
          rwa [h.bytes (start + 1) (by omega)]
        rw [skipExtensionHeaders_step budget hlen', h.length, if_pos hin, h.bytes start (by omega)]
        exact ih hs
      · cases hs

end Parsers

/-! ## The walk -/

/-- Behind the transport header at `start`, or behind the echo fields of a message that has them. -/
def transportEnd (pkt : Packet) (start : ℕ) : ℕ :=
  match pkt.transportProto with
  | .tcp => start + pkt.transport.getTcp.headerLength
  | .udp => start + 8
  | .icmp => start + echoLength icmpIsEcho pkt.transport.getIcmp
  | .icmpv6 => start + echoLength icmpv6IsEcho pkt.transport.getIcmpv6
  | _ => start

theorem le_transportEnd (pkt : Packet) (start : ℕ) : start ≤ transportEnd pkt start := by
  unfold transportEnd
  split <;> omega

/-- Behind the headers above a link header of `start` bytes. An address resolution message of another
kind is left after its first fields. -/
def networkEnd (data : Bytes) (start : ℕ) (pkt : Packet) : ℕ :=
  match pkt.networkProto with
  | .arp => start + 28
  | .ipv4 | .ipv6 => transportEnd pkt (start + networkLength data start pkt)
  | _ => if pkt.eth.ethertype = ethertypeArp then start + 8 else start

theorem le_networkEnd (data : Bytes) (start : ℕ) (pkt : Packet) : start ≤ networkEnd data start pkt := by
  have hle := le_transportEnd pkt (start + networkLength data start pkt)
  unfold networkEnd
  split
  · omega
  · omega
  · omega
  · split <;> omega

instance : DecidablePred HasDnsPort := fun _ => inferInstanceAs (Decidable (_ ∨ _))

/-- How many bytes decide the packet: everything of a malformed packet and of one with the port of DNS,
otherwise the headers. -/
def inspected (data : Bytes) (pkt : Packet) : ℕ :=
  if pkt.malformed = true ∨ HasDnsPort pkt then data.length
  else if pkt.hasEth then networkEnd data (linkLength pkt.eth) pkt
  else 0

/-- Neither rejected nor handed to the DNS parser. -/
structure Undisturbed (pkt : Packet) : Prop where
  malformed : pkt.malformed = false
  dns : ¬HasDnsPort pkt

/-- What a packet keeps of its capture without looking at it. -/
structure Label where
  number : UInt64
  timestamp : Timestamp
  originalLength : ℕ
  rawData : Bytes

/-- The packet with another label. -/
def Label.on (l : Label) (pkt : Packet) : Packet :=
  { pkt with number := l.number, timestamp := l.timestamp, originalLength := l.originalLength, rawData := l.rawData }

def label (c : Capture) : Label := ⟨c.number,c.timestamp,c.originalLength,c.data⟩

section Walk
variable {d : Bytes} {p q : Packet} (l : Label)

theorem setPayload_label (n k : ℕ) : nsPacketSetPayload (l.on p) n k = l.on (nsPacketSetPayload p n k) := by
  rw [nsPacketSetPayload_eq, nsPacketSetPayload_eq]
  rfl

theorem dnsIfApplicable_label (data : Bytes) (offset : ℕ) (srcPort dstPort : UInt16) :
    nsPacketParseDnsIfApplicable (l.on p) data offset srcPort dstPort =
      l.on (nsPacketParseDnsIfApplicable p data offset srcPort dstPort) := by
  unfold nsPacketParseDnsIfApplicable
  split
  · rfl
  · split
    · rfl
    · split <;> rfl

theorem transport_label (data : Bytes) (k : ℕ) (proto : UInt8) :
    nsPacketParseTransport (l.on p) data k proto = l.on (nsPacketParseTransport p data k proto) := by
  unfold nsPacketParseTransport
  split
  · split
    · rw [← dnsIfApplicable_label, ← setPayload_label]
      rfl
    · rfl
    · rfl
  · split
    · split
      · rw [← dnsIfApplicable_label, ← setPayload_label]
        rfl
      · rfl
      · rfl
    · split
      · split <;> rfl
      · split
        · split <;> rfl
        · rfl

theorem network_label (data : Bytes) (k : ℕ) (ethertype : UInt16) :
    nsPacketParseNetwork (l.on p) data k ethertype = l.on (nsPacketParseNetwork p data k ethertype) := by
  unfold nsPacketParseNetwork
  split
  · unfold nsPacketParseIpv4
    split
    · rfl
    · rfl
    · dsimp only
      split
      · rw [← setPayload_label]
        rfl
      · rw [← transport_label, ← setPayload_label]
        rfl
  · split
    · unfold nsPacketParseIpv6
      split
      · rfl
      · rfl
      · dsimp only
        split
        · rw [← setPayload_label]
          rfl
        · rw [← transport_label, ← setPayload_label]
          rfl
    · split
      · unfold nsPacketParseArp
        rw [← setPayload_label]
        split <;> rfl
      · rfl

theorem Undisturbed.not_marked (h : Undisturbed q) (reason : MalformedReason) : q ≠ nsPacketMarkMalformed p reason := by
  rintro rfl
  exact Bool.noConfusion h.malformed

/-- Without the port of DNS the last step does nothing. -/
theorem dnsIfApplicable_of_ports (data : Bytes) (offset : ℕ) {srcPort dstPort : UInt16}
    (h : ¬(srcPort = 53 ∨ dstPort = 53)) : nsPacketParseDnsIfApplicable p data offset srcPort dstPort = p := by
  unfold nsPacketParseDnsIfApplicable
  exact if_pos (not_or.mp h)

theorem transportEnd_eq (h : SameLayers p q) (start : ℕ) : transportEnd q start = transportEnd p start := by
  rw [transportEnd, transportEnd, h.transportProto, h.transport]

theorem hasDnsPort_iff (h : SameLayers p q) : HasDnsPort q ↔ HasDnsPort p := by
  rw [HasDnsPort, HasDnsPort, h.transportProto, h.transport]

section Steps
variable {data : Bytes} {k : ℕ}

/-- What follows the port header of an undisturbed packet is the payload view alone. -/
theorem application_undisturbed {srcPort dstPort : UInt16}
    (hp : nsPacketParseDnsIfApplicable (nsPacketSetPayload p data.length k) data k srcPort dstPort = q)
    (hq : Undisturbed q) (hport : srcPort = 53 ∨ dstPort = 53 → HasDnsPort p) :
    ¬(srcPort = 53 ∨ dstPort = 53) ∧ nsPacketSetPayload p data.length k = q ∧ SameLayers p q := by
  have hkeeps := setPayload_dns_keeps p data k srcPort dstPort
  rw [hp] at hkeeps
  have hports : ¬(srcPort = 53 ∨ dstPort = 53) := fun h53 => hq.dns ((hasDnsPort_iff hkeeps).mpr (hport h53))
  rw [dnsIfApplicable_of_ports _ _ hports] at hp
  exact ⟨hports,hp,hkeeps⟩

/-- The transport step of an undisturbed packet reads its header only. -/
theorem transport_decided {proto : UInt8} (hp : nsPacketParseTransport p data k proto = q) (hq : Undisturbed q)
    (h : Agree (transportEnd q k) data d) : nsPacketParseTransport (l.on p) d k proto = l.on q := by
  unfold nsPacketParseTransport at hp ⊢
  by_cases htcp : proto = ipProtoTcp
  · subst htcp
    simp only [↓reduceIte] at hp ⊢
    cases hm : nsParseTcp (data.drop k) with
    | error e =>
      rw [hm] at hp
      cases e <;> exact absurd hp.symm (hq.not_marked _)
    | ok m =>
      obtain ⟨info,headerLen⟩ := m
      rw [hm] at hp
      obtain ⟨hports,hset,hsame⟩ := application_undisturbed hp hq fun h53 => .inl ⟨rfl,h53⟩
      obtain ⟨_,_,_,heq⟩ := nsParseTcp_eq_ok_iff.mp hm
      have hend : transportEnd q k = k + headerLen := by
        rw [transportEnd_eq hsame]
        obtain ⟨rfl,rfl⟩ := Prod.ext_iff.mp heq
        rfl
      rw [hend] at h
      rw [nsParseTcp_agree (h.drop le_rfl) hm le_rfl]
      dsimp only
      rw [dnsIfApplicable_of_ports _ _ hports, h.length, ← hset]
      exact setPayload_label l (p := { p with transport := .tcp info, transportProto := .tcp }) _ _
  · by_cases hudp : proto = ipProtoUdp
    · subst hudp
      simp only [htcp, ↓reduceIte] at hp ⊢
      cases hm : nsParseUdp (data.drop k) with
      | error e =>
        rw [hm] at hp
        cases e <;> exact absurd hp.symm (hq.not_marked _)
      | ok info =>
        rw [hm] at hp
        obtain ⟨hports,hset,hsame⟩ := application_undisturbed hp hq fun h53 => .inr ⟨rfl,h53⟩
        have hend : transportEnd q k = k + 8 := by rw [transportEnd_eq hsame, transportEnd]
        rw [hend] at h
        rw [nsParseUdp_agree (h.drop le_rfl) hm le_rfl]
        dsimp only
        rw [dnsIfApplicable_of_ports _ _ hports, h.length, ← hset]
        exact setPayload_label l (p := { p with transport := .udp info, transportProto := .udp }) _ _
    · by_cases hicmp : proto = ipProtoIcmp
      · subst hicmp
        simp only [htcp, hudp, ↓reduceIte] at hp ⊢
        cases hm : nsParseIcmp (data.drop k) with
        | error e =>
          rw [hm] at hp
          exact absurd hp.symm (hq.not_marked _)
        | ok info =>
          rw [hm] at hp
          subst hp
          rw [show nsParseIcmp (d.drop k) = .ok info from parseEcho_agree (h.drop le_rfl) hm le_rfl]
          rfl
      · by_cases hicmpv6 : proto = ipProtoIcmpv6
        · subst hicmpv6
          simp only [htcp, hudp, hicmp, ↓reduceIte] at hp ⊢
          cases hm : nsParseIcmpv6 (data.drop k) with
          | error e =>
            rw [hm] at hp
            exact absurd hp.symm (hq.not_marked _)
          | ok info =>
            rw [hm] at hp
            subst hp
            rw [show nsParseIcmpv6 (d.drop k) = .ok info from parseEcho_agree (h.drop le_rfl) hm le_rfl]
            rfl
        · simp only [htcp, hudp, hicmp, hicmpv6, ↓reduceIte] at hp ⊢
          rw [hp]

end Steps

section Network
variable {data : Bytes} {k : ℕ} (hq : Undisturbed q)
include hq

theorem ipv4_decided (hp : nsPacketParseIpv4 p data k = q) (h : Agree (networkEnd data k q) data d) :
    nsPacketParseIpv4 (l.on p) d k = l.on q := by
  cases hm : nsParseIpv4 (data.drop k) with
  | error e =>
    unfold nsPacketParseIpv4 at hp
    rw [hm] at hp
    cases e <;> exact absurd hp.symm (hq.not_marked _)
  | ok m =>
    obtain ⟨info,headerLen⟩ := m
    obtain ⟨_,_,_,_,_,heq⟩ := nsParseIpv4_eq_ok_iff.mp hm
    have hsame := nsPacketParseIpv4_sameNetwork p data k hm
    rw [hp] at hsame
    have hproto : q.networkProto = .ipv4 := hsame.networkProto
    have hnet : q.net = .ipv4 info := hsame.net
    have hend : networkEnd data k q = transportEnd q (k + headerLen) := by
      rw [networkEnd, hproto, networkLength, hproto, hnet]
      obtain ⟨rfl,rfl⟩ := Prod.ext_iff.mp heq
      rfl
    rw [hend] at h
    have hm' := nsParseIpv4_agree (h.drop (n := headerLen) (le_transportEnd q _)) hm le_rfl
    cases hf : info.isFragment && !info.isInitialFragment with
    | true =>
      rw [nsPacketParseIpv4_stopped p hm hf] at hp
      rw [nsPacketParseIpv4_stopped _ hm' hf, h.length, ← hp]
      exact setPayload_label l (p := { p with net := .ipv4 info, networkProto := .ipv4 }) _ _
    | false =>
      rw [nsPacketParseIpv4_continued p hm hf] at hp
      rw [nsPacketParseIpv4_continued _ hm' hf, h.length, ← transport_decided l hp hq h, ← setPayload_label]
      rfl

theorem ipv6_decided (hp : nsPacketParseIpv6 p data k = q) (h : Agree (networkEnd data k q) data d) :
    nsPacketParseIpv6 (l.on p) d k = l.on q := by
  cases hm : nsParseIpv6 (data.drop k) with
  | error e =>
    unfold nsPacketParseIpv6 at hp
    rw [hm] at hp
    cases e <;> exact absurd hp.symm (hq.not_marked _)
  | ok m =>
    obtain ⟨info,headerLen⟩ := m
    obtain ⟨_,_,heq⟩ := nsParseIpv6_eq_ok_iff.mp hm
    obtain rfl : headerLen = 40 := congrArg Prod.snd heq
    have hsame := nsPacketParseIpv6_sameNetwork p data k hm
    rw [hp] at hsame
    have hproto : q.networkProto = .ipv6 := hsame.networkProto
    have hnet : q.net = .ipv6 info := hsame.net
    have hstop := skipExtensionHeaders_stop data 8 (k + 40) info.nextHeader
    rcases hs : nsIpv6SkipExtensionHeaders data (k + 40) info.nextHeader with ⟨accepted,extOffset,nextHeader⟩
    rw [show skipExtensionHeaders data 8 (k + 40) info.nextHeader = (accepted,extOffset,nextHeader) from hs] at hstop
    dsimp only at hstop
    have hend : networkEnd data k q = transportEnd q extOffset := by
      rw [networkEnd, hproto, networkLength, hproto, hnet, hstop, Nat.add_assoc]
      rfl
    rw [hend] at h
    have hle := le_transportEnd q extOffset
    have hm' := nsParseIpv6_agree (h.drop (n := 40) (by omega)) hm le_rfl
    cases accepted with
    | false =>
      rw [nsPacketParseIpv6_rejected p hm hs, setPayload_markMalformed] at hp
      exact absurd hp.symm (hq.not_marked _)
    | true =>
      have hs' : nsIpv6SkipExtensionHeaders d (k + 40) info.nextHeader = (true,extOffset,nextHeader) :=
        skipExtensionHeaders_agree h hs hle
      rw [nsPacketParseIpv6_accepted p hm hs] at hp
      rw [nsPacketParseIpv6_accepted _ hm' hs', h.length, ← transport_decided l hp hq h, ← setPayload_label]
      rfl

/-- An address resolution message is decided by itself, and one of another kind by its first fields. -/
theorem arp_decided (hn : p.networkProto = .unknown) (htype : p.eth.ethertype = ethertypeArp)
    (hp : nsPacketParseArp p data k = q) (h : Agree (networkEnd data k q) data d) :
    nsPacketParseArp (l.on p) d k = l.on q := by
  unfold nsPacketParseArp at hp ⊢
  cases hm : nsParseArp (data.drop k) with
  | ok info =>
    rw [hm] at hp
    have hend : networkEnd data k q = k + 28 := by
      rw [← hp, networkEnd, (setPayload_keeps _ _ _).networkProto]
    rw [hend] at h
    rw [nsParseArp_agree (h.drop le_rfl) hm le_rfl, h.length, ← hp]
    exact setPayload_label l (p := { p with net := .arp info, networkProto := .arp }) _ _
  | error e =>
    rw [hm] at hp
    cases e with
    | truncated =>
      dsimp only at hp
      rw [setPayload_markMalformed] at hp
      exact absurd hp.symm (hq.not_marked _)
    | malformed => exact absurd hm (nsParseArp_ne_malformed)
    | unsupported =>
      have hset := setPayload_keeps p data.length k
      have hend : networkEnd data k q = k + 8 := by
        rw [← hp, networkEnd, hset.networkProto, hn, hset.eth]
        exact if_pos htype
      rw [hend] at h
      rw [nsParseArp_unsupported_agree (h.drop le_rfl) hm le_rfl, h.length, ← hp]
      exact setPayload_label l _ _

/-- The network step of an undisturbed packet reads the headers only. -/
theorem network_decided {ethertype : UInt16} (hn : p.networkProto = .unknown) (heth : p.eth.ethertype = ethertype)
    (hp : nsPacketParseNetwork p data k ethertype = q) (h : Agree (networkEnd data k q) data d) :
    nsPacketParseNetwork (l.on p) d k ethertype = l.on q := by
  unfold nsPacketParseNetwork at hp ⊢
  split at hp
  · rename_i htype
    rw [if_pos htype]
    exact ipv4_decided l hq hp h
  · rename_i hnot4
    rw [if_neg hnot4]
    split at hp
    · rename_i htype
      rw [if_pos htype]
      exact ipv6_decided l hq hp h
    · rename_i hnot6
      rw [if_neg hnot6]
      split at hp
      · rename_i htype
        rw [if_pos htype]
        exact arp_decided l hq hn (heth.trans htype) hp h
      · rename_i hnotArp
        rw [if_neg hnotArp, hp]

end Network

end Walk

theorem linkPacket_label {c c' : Capture} (hl : c'.linkType = c.linkType) (hlen : c'.data.length = c.data.length)
    (eth : EthInfo) (offset : ℕ) : linkPacket c' eth offset = (label c').on (linkPacket c eth offset) := by
  unfold linkPacket initialPacket
  rw [← setPayload_label, hl, hlen]
  rfl

theorem initialPacket_label {c c' : Capture} (hl : c'.linkType = c.linkType) (hlen : c'.data.length = c.data.length) :
    initialPacket c'.data c'.originalLength c'.timestamp c'.number c'.linkType =
      (label c').on (initialPacket c.data c.originalLength c.timestamp c.number c.linkType) := by
  unfold initialPacket
  rw [hl, hlen]
  rfl

/-- Two captures of the same bytes differ in the label of their packets. -/
theorem packet_label {c c' : Capture} (hl : c'.linkType = c.linkType) (hdata : c'.data = c.data) :
    c'.packet = (label c').on c.packet := by
  have hlen : c'.data.length = c.data.length := by rw [hdata]
  by_cases he : c.linkType = .ethernet
  · cases hm : nsParseEthernet c.data with
    | error e =>
      rw [packet_of_error he hm, packet_of_error (hl.trans he) (hdata ▸ hm), initialPacket_label hl hlen]
      rfl
    | ok m =>
      rw [packet_of_ethernet he hm, packet_of_ethernet (hl.trans he) (hdata ▸ hm), linkPacket_label hl hlen, hdata]
      exact network_label (label c') _ _ _
  · rw [packet_of_unknown he, packet_of_unknown (hl ▸ he)]
    exact initialPacket_label hl hlen

theorem inspected_label (l : Label) (data : Bytes) (pkt : Packet) : inspected data (l.on pkt) = inspected data pkt := rfl

/-- The packet is decided by its inspected bytes, but for its label. -/
theorem packet_decided {c c' : Capture} (hl : c'.linkType = c.linkType)
    (h : Agree (inspected c.data c.packet) c.data c'.data) : c'.packet = (label c').on c.packet := by
  by_cases hdisturbed : c.packet.malformed = true ∨ HasDnsPort c.packet
  · rw [inspected, if_pos hdisturbed] at h
    exact packet_label hl (h.eq le_rfl)
  · have hq : Undisturbed c.packet := by
      obtain ⟨hm,hdns⟩ := not_or.mp hdisturbed
      exact ⟨Bool.not_eq_true _ ▸ hm,hdns⟩
    rw [inspected, if_neg hdisturbed] at h
    by_cases he : c.linkType = .ethernet
    · cases hm : nsParseEthernet c.data with
      | error e => exact absurd (packet_of_error he hm) (hq.not_marked _)
      | ok m =>
        obtain ⟨eth,offset⟩ := m
        obtain ⟨hasEth,heth⟩ := packet_link he hm
        have hlink := setPayload_keeps { initialPacket c.data c.originalLength c.timestamp c.number c.linkType with
          eth := eth, hasEth := true } c.data.length offset
        rw [if_pos hasEth, heth, ← nsParseEthernet_offset hm] at h
        have hm' : nsParseEthernet c'.data = .ok (eth,offset) := nsParseEthernet_agree h hm (le_networkEnd _ _ _)
        rw [packet_of_ethernet (hl.trans he) hm', linkPacket_label hl h.length]
        exact network_decided (label c') hq (p := linkPacket c eth offset) hlink.networkProto
          (congrArg EthInfo.ethertype hlink.eth) (packet_of_ethernet he hm).symm h
    · rw [packet_of_unknown he, packet_of_unknown (hl ▸ he)]
      exact initialPacket_label hl h.length

end Netscope.InspectedBytes
