import Netscope.Dns.MessageSpecs
import Netscope.Dns.NameGrammar
import Netscope.Layers.RoundTrip

/-! # DNS over UDP and over TCP

A UDP datagram carries a message as it is; a TCP segment carries it behind a
two-byte length. Both payloads go to the message parser as they stand, so over TCP
the length is read as the first word of the header.
-/
namespace Netscope.DnsTransports
open ByteString Layers Wire RoundTrip DnsName

/-! ## The size of a message -/

section Bounds
variable {data : Bytes} {offset stop : ℕ}

theorem nsDnsParseQuestion_bounds {q : DnsQuestion} (h : nsDnsParseQuestion data offset = .ok (q,stop)) :
    offset + 5 ≤ stop ∧ stop ≤ data.length := by
  obtain ⟨nameEnd,hname,rfl,hstop⟩ := nsDnsParseQuestion_ok h
  obtain ⟨labels,pointers,hchain,_⟩ := (nsDnsDecodeName_ok_iff (by decide) q.name nameEnd).mp hname
  have hbounds := hchain.stop_bounds
  omega

/-- Every question takes at least five bytes. -/
theorem parseQuestions_bounds {remaining i : ℕ} {qs : List DnsQuestion}
    (h : parseQuestions data remaining i offset = .ok (qs,stop)) (hoffset : offset ≤ data.length) :
    offset + 5 * remaining ≤ stop ∧ stop ≤ data.length := by
  induction remaining generalizing i offset qs with
  | zero =>
    obtain ⟨_,rfl⟩ := Prod.mk.inj (Except.ok.inj h)
    omega
  | succ remaining ih =>
    obtain ⟨q,next,rest,hq,hrest,heq⟩ := parseQuestions_ok h
    obtain ⟨-,rfl⟩ := Prod.mk.inj heq
    have hstep := nsDnsParseQuestion_bounds hq
    have hbounds := ih hrest hstep.2
    omega

end Bounds

/-- A message is longer than the number of its questions. -/
theorem questionCount_lt {m : Bytes} {info : DnsInfo} (h : nsParseDns m = .ok info) : (u16 m 4).toNat < m.length := by
  obtain ⟨h12,questions,stop,answers,hq,_⟩ := nsParseDns_ok_iff.mp h
  have := parseQuestions_bounds hq h12
  omega

/-- A message behind its own length is never read as the same message. -/
theorem nsParseDns_framed {m : Bytes} {info : DnsInfo} (hlen : m.length ≤ 65535) (h : nsParseDns m = .ok info) :
    nsParseDns (be16 (UInt16.ofNat m.length) ++ m) ≠ .ok info := by
  intro hframed
  have hcount := questionCount_lt h
  have hsize : (UInt16.ofNat m.length).toNat = m.length := UInt16.toNat_ofNat_of_lt' (Nat.lt_succ_of_le hlen)
  obtain ⟨_,_,_,_,_,_,rfl⟩ := nsParseDns_ok_iff.mp h
  obtain ⟨_,_,_,_,_,_,hinfo⟩ := nsParseDns_ok_iff.mp hframed
  have hid := congrArg DnsInfo.transactionId hinfo
  have hflags := congrArg DnsInfo.flags hinfo
  have hquestions := congrArg DnsInfo.questionCount hinfo
  -- Each header word would have to equal the one before it, down to the length.
  simp (disch := simp) only [messageAt, u16_be16, u16_skip, be16_length, Nat.reduceSub] at hid hflags hquestions
  rw [hquestions, hflags, hid, hsize] at hcount
  exact Nat.lt_irrefl _ hcount

/-! ## The two carriers -/

section Carriers
variable {f : IpFrame} {c : Capture}

/-- With port 53 on either side the payload goes to the message parser. -/
theorem ipFrame_dns (hl : c.linkType = .ethernet) (hd : c.data = f.encode) {srcPort dstPort : UInt16}
    (hports : f.upper.ports = some (srcPort,dstPort)) (h53 : srcPort = 53 ∨ dstPort = 53) :
    ∃ q : Packet, q.hasDns = false ∧
      (∀ info, nsParseDns f.payload = .ok info → c.packet = { q with dns := info, hasDns := true }) ∧
      ∀ e, nsParseDns f.payload = .error e → c.packet = q := by
  have hencode : f.encode =
      (f.link.encode f.ip.ethertype ++ f.ip.encode f.upper.number) ++ (f.upper.encode ++ f.payload) := by
    rw [IpFrame.encode, List.append_assoc]
  have hport : ¬(srcPort ≠ 53 ∧ dstPort ≠ 53) := by tauto
  rw [ipFrame_packet f hl hd, hencode, nsPacketParseTransport_ports _ _ _ _ hports, ← List.append_assoc _ f.upper.encode]
  generalize (f.link.encode f.ip.ethertype ++ f.ip.encode f.upper.number) ++ f.upper.encode = before
  have hle : ¬before.length > (before ++ f.payload).length := by simp
  refine ⟨nsPacketSetPayload (withUpper (networkPacket f c) f.upper) (before ++ f.payload).length before.length,?_,?_,?_⟩
  · simp [nsPacketSetPayload_eq, withUpper, networkPacket, linkPacket, initialPacket]
  · intro info hok
    simp only [nsPacketParseDnsIfApplicable, hport, hle, ↓reduceIte, List.drop_left, hok]
  · intro e herror
    simp only [nsPacketParseDnsIfApplicable, hport, hle, ↓reduceIte, List.drop_left, herror]

theorem ipFrame_dns_of_ok (hl : c.linkType = .ethernet) (hd : c.data = f.encode) {srcPort dstPort : UInt16}
    (hports : f.upper.ports = some (srcPort,dstPort)) (h53 : srcPort = 53 ∨ dstPort = 53) {info : DnsInfo}
    (h : nsParseDns f.payload = .ok info) : c.packet.hasDns = true ∧ c.packet.dns = info := by
  obtain ⟨q,_,hpkt,_⟩ := ipFrame_dns hl hd hports h53
  rw [hpkt info h]
  exact ⟨rfl,rfl⟩

theorem ipFrame_dns_of_error (hl : c.linkType = .ethernet) (hd : c.data = f.encode) {srcPort dstPort : UInt16}
    (hports : f.upper.ports = some (srcPort,dstPort)) (h53 : srcPort = 53 ∨ dstPort = 53) {e : ParseError}
    (h : nsParseDns f.payload = .error e) : c.packet.hasDns = false := by
  obtain ⟨q,hq,_,hpkt⟩ := ipFrame_dns hl hd hports h53
  rw [hpkt e h]
  exact hq

end Carriers

/-- The capture holds a UDP datagram to or from port 53 with the message as its payload. -/
def OverUdp (m : Bytes) (c : Capture) : Prop :=
  ∃ (f : IpFrame) (h : UdpHeader), c.linkType = .ethernet ∧ c.data = f.encode ∧ f.upper = .udp h ∧
    (h.sourcePort = 53 ∨ h.destinationPort = 53) ∧ f.payload = m

/-- The capture holds a TCP segment to or from port 53 with the length and the message as its payload. -/
def OverTcp (m : Bytes) (c : Capture) : Prop :=
  ∃ (f : IpFrame) (h : TcpHeader), c.linkType = .ethernet ∧ c.data = f.encode ∧ f.upper = .tcp h ∧
    (h.sourcePort = 53 ∨ h.destinationPort = 53) ∧ f.payload = be16 (UInt16.ofNat m.length) ++ m

/-- Both packets report a DNS message, and the same one. -/
def SameDns (p q : Packet) : Prop := p.hasDns = true ∧ q.hasDns = true ∧ p.dns = q.dns

/-- No message is decoded alike over the two transports. -/
theorem overUdp_overTcp_differ {m : Bytes} {info : DnsInfo} (hlen : m.length ≤ 65535) (hok : nsParseDns m = .ok info)
    {u t : Capture} (hu : OverUdp m u) (ht : OverTcp m t) : ¬SameDns u.packet t.packet := by
  rintro ⟨_,htcp,hsame⟩
  obtain ⟨f,h,hl,hd,hupper,h53,rfl⟩ := hu
  obtain ⟨g,k,hl',hd',hupper',h53',hpayload⟩ := ht
  have hdnsU := ipFrame_dns_of_ok hl hd (by rw [hupper]; rfl) h53 hok
  have hports : g.upper.ports = some (k.sourcePort,k.destinationPort) := by rw [hupper']; rfl
  cases hg : nsParseDns g.payload with
  | error e =>
    rw [ipFrame_dns_of_error hl' hd' hports h53' hg] at htcp
    cases htcp
  | ok info' =>
    have hdnsT := ipFrame_dns_of_ok hl' hd' hports h53' hg
    rw [hdnsU.2, hdnsT.2] at hsame
    rw [hpayload, ← hsame] at hg
    exact nsParseDns_framed hlen hok hg

/-- A query for the addresses of the root. -/
def rootQuery : Bytes := [0x12,0x34,1,0,0,1,0,0,0,0,0,0,0,0,1,0,1]

def queryLink : LinkHeader := ⟨#v[1,2,3,4,5,6],#v[7,8,9,10,11,12],none⟩

/-- An unfragmented IPv4 header without options. -/
def queryIp (totalLength : UInt16) (h : 20 ≤ totalLength.toNat) : IpHeader :=
  .ipv4 {
    ihl := 5, dscp := 0, ecn := 0, totalLength := totalLength, identification := 1, reserved := false, flagDf := true
    flagMf := false, ttl := 64, headerChecksum := 0, source := #v[10,0,0,1], destination := #v[10,0,0,2], options := []
    ihl_ge := by decide, ihl_lt := by decide, dscp_lt := by decide, ecn_lt := by decide, totalLength_ge := h
    options_length := rfl }

def queryUdpHeader : UdpHeader where
  sourcePort := 40000
  destinationPort := 53
  length := 25
  checksum := 0
  length_ge := by decide

def queryTcpHeader : TcpHeader where
  sourcePort := 40000
  destinationPort := 53
  sequenceNumber := 1
  ackNumber := 1
  dataOffset := 5
  reserved := 0
  flags := 0x18
  windowSize := 0xFFFF
  checksum := 0
  urgentPointer := 0
  options := []
  dataOffset_ge := by decide
  dataOffset_lt := by decide
  reserved_lt := by decide
  options_length := rfl

def queryUdpFrame : IpFrame := ⟨queryLink,queryIp 45 (by decide),.udp queryUdpHeader,rootQuery⟩
def queryTcpFrame : IpFrame := ⟨queryLink,queryIp 59 (by decide),.tcp queryTcpHeader,be16 17 ++ rootQuery⟩
def queryOverUdp : Capture := ⟨queryUdpFrame.encode,59,⟨0,0⟩,1,.ethernet⟩
def queryOverTcp : Capture := ⟨queryTcpFrame.encode,73,⟨0,0⟩,2,.ethernet⟩

theorem queryOverUdp_carries : OverUdp rootQuery queryOverUdp :=
  ⟨queryUdpFrame,queryUdpHeader,rfl,rfl,rfl,.inr rfl,rfl⟩

theorem queryOverTcp_carries : OverTcp rootQuery queryOverTcp :=
  ⟨queryTcpFrame,queryTcpHeader,rfl,rfl,rfl,.inr rfl,rfl⟩

theorem rootQuery_parses : nsParseDns rootQuery = .ok ⟨0x1234,0x0100,false,1,0,0,0,[⟨[dot],1,1⟩],[]⟩ := by
  decide +kernel

theorem overUdp_overTcp_differ_rootQuery :
    rootQuery.length ≤ 65535 ∧ OverUdp rootQuery queryOverUdp ∧ OverTcp rootQuery queryOverTcp ∧
      ¬SameDns queryOverUdp.packet queryOverTcp.packet :=
  ⟨by decide,queryOverUdp_carries,queryOverTcp_carries,
    overUdp_overTcp_differ (by decide) rootQuery_parses queryOverUdp_carries queryOverTcp_carries⟩

theorem rootQuery_lost_overTcp :
    nsParseDns rootQuery = .ok ⟨0x1234,0x0100,false,1,0,0,0,[⟨[dot],1,1⟩],[]⟩ ∧ OverUdp rootQuery queryOverUdp ∧
      OverTcp rootQuery queryOverTcp ∧ queryOverUdp.packet.hasDns = true ∧ queryOverTcp.packet.hasDns = false ∧
      ¬SameDns queryOverUdp.packet queryOverTcp.packet := by
  have hudp : queryOverUdp.packet.hasDns = true := by decide +kernel
  have htcp : queryOverTcp.packet.hasDns = false := by decide +kernel
  refine ⟨rootQuery_parses,queryOverUdp_carries,queryOverTcp_carries,hudp,htcp,?_⟩
  rintro ⟨_,h,_⟩
  rw [htcp] at h
  cases h

end Netscope.DnsTransports
