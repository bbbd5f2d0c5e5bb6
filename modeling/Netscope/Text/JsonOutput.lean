import Mathlib.Data.Nat.Bitwise
import Netscope.Library.JsonWriting
import Netscope.Model.Output
import Netscope.Text.AddressText

/-! # The JSON line of a packet

The line that is printed for a packet is the text of one JSON object. The object is
built here as a written value, member by member, and compared with what a reader of
the line is to learn about the packet.
-/
namespace Netscope.JsonOutput
open ByteString Numerals ByteClasses AddressText Json

/-! ## Escapes -/

theorem hex_padded {n : ℕ} (h : n < 256) :
    padLeft 48 4 (hex n) = [48,48,digitByte (n / 16),digitByte (n % 16)] := by
  rcases Nat.lt_or_ge n 16 with hn | hn
  · rw [hex, numeral_of_lt hn, Nat.div_eq_of_lt hn, Nat.mod_eq_of_lt hn]
    rfl
  · have hfirst : hex (n / 16) = [digitByte (n / 16)] := numeral_of_lt (by omega)
    have hdigits : hex (16 * (n / 16) + n % 16) = hex (n / 16) ++ [digitByte (n % 16)] :=
      numeral_append (by decide) (by omega) (by omega)
    rw [Nat.div_add_mod, hfirst] at hdigits
    rw [hdigits]
    rfl

theorem hexDigit_digitByte {d : ℕ} (h : d < 16) : hexDigit (digitByte d) = some (UInt16.ofNat d) := by
  revert d
  decide

theorem hexUnit_byte {n : ℕ} (h : n < 256) :
    hexUnit 48 48 (digitByte (n / 16)) (digitByte (n % 16)) = some (UInt16.ofNat n) := by
  have hzero : hexDigit 48 = some 0 := by decide
  have hsplit : UInt16.ofNat (n / 16) * 16 + UInt16.ofNat (n % 16) = UInt16.ofNat n := by
    calc UInt16.ofNat (n / 16) * 16 + UInt16.ofNat (n % 16)
        = UInt16.ofNat (n / 16 * 16 + n % 16) := by
          rw [UInt16.ofNat_add, UInt16.ofNat_mul]
          rfl
      _ = UInt16.ofNat n := by rw [Nat.div_add_mod']
  rw [hexUnit, hzero, hexDigit_digitByte (by omega), hexDigit_digitByte (by omega)]
  simp [hsplit]

theorem printable_of_unescaped {c : UInt8} (h : ¬(c < 0x20 ∨ c ≥ 0x7f)) : Printable c := by
  obtain ⟨hlow,hhigh⟩ := not_or.mp h
  have hhigh : c.toNat < 0x7f := UInt8.lt_iff_toNat_lt.mp (UInt8.not_le.mp hhigh)
  exact ⟨UInt8.not_lt.mp hlow,UInt8.le_iff_toNat_le.mpr (Nat.le_of_lt_succ hhigh)⟩

theorem spellsUnit_jsonEscapedByte (c : UInt8) : SpellsUnit (jsonEscapedByte c) c.toUInt16 := by
  unfold jsonEscapedByte
  split_ifs with hquote hbackslash hnewline hreturn htab hother
  · subst hquote
    exact spellsUnit_escape (by decide) rfl
  · subst hbackslash
    exact spellsUnit_escape (by decide) rfl
  · subst hnewline
    exact spellsUnit_escape (by decide) rfl
  · subst hreturn
    exact spellsUnit_escape (by decide) rfl
  · subst htab
    exact spellsUnit_escape (by decide) rfl
  · rw [hex_padded c.toNat_lt]
    apply spellsUnit_hex
    rw [hexUnit_byte c.toNat_lt, UInt16.ofNat_uInt8ToNat]
  · exact Plain.spellsUnit ⟨printable_of_unescaped hother,hquote,hbackslash⟩

theorem printable_jsonEscapedByte (c : UInt8) : Within Printable (jsonEscapedByte c) := by
  unfold jsonEscapedByte
  split_ifs with hquote hbackslash hnewline hreturn htab hother
  · decide
  · decide
  · decide
  · decide
  · decide
  · have hdigits : Within Printable (hex c.toNat) := numeral_printable (by decide) (by decide) c.toNat
    exact within_append.mpr ⟨by decide,hdigits.padLeft (by decide) 4⟩
  · exact within_cons.mpr ⟨printable_of_unescaped hother,within_nil⟩

/-- A string as `json_write_escaped` writes it. -/
def escapedString (s : Bytes) : Written :=
  .string (cString s) jsonEscapedByte spellsUnit_jsonEscapedByte printable_jsonEscapedByte

theorem escapedString_text (s : Bytes) : (escapedString s).text = jsonWriteEscaped s := rfl

/-! ## The object -/

/-- The object of an endpoint. -/
def endpointObject (addr : Bytes) (port : Option UInt16) : Written :=
  .object [(⟨ascii "ip",by decide⟩,some (escapedString addr)),(⟨ascii "port",by decide⟩,port.map fun p => .number p.toNat)]
    (show [ascii "ip",ascii "port"].Nodup by decide)

/-- The object with the flags of a TCP header. -/
def tcpObject (flags : UInt8) : Written :=
  .object [(⟨ascii "flags",by decide⟩,
      some (.array ((tcpFlagNames.filter fun f => flags &&& f.1 ≠ 0).map fun f => escapedString f.2)))]
    (List.nodup_singleton _)

/-- The object with the first question of a message. -/
def dnsObject (q : DnsQuestion) : Written :=
  .object [(⟨ascii "question",by decide⟩,some (escapedString q.name)),
      (⟨ascii "type",by decide⟩,some (escapedString (nsDnsTypeName q.type 16)))]
    (show [ascii "question",ascii "type"].Nodup by decide)

section Members
variable (clock : Clock) (pkt : Packet)

/-- The text of the time of a packet. -/
def timestampText (ts : Timestamp) : Bytes :=
  clock.universalTime ts.seconds ++ snprintf (32 - (clock.universalTime ts.seconds).length)
    ([dot] ++ zeroPadded 3 (ts.microseconds.toInt.tdiv 1000) ++ ascii "Z")

def lengthMember : Name × Option Written := (⟨ascii "captured_length",by decide⟩,some (.number pkt.capturedLength))
def malformedMember : Name × Option Written := (⟨ascii "malformed",by decide⟩,some (.bool pkt.malformed))

def protocolMember : Name × Option Written :=
  (⟨ascii "protocol",by decide⟩,some (escapedString (ascii (nsProtoName (topProtocol pkt)))))

def sourceMember : Name × Option Written :=
  (⟨ascii "source",by decide⟩,
    if pkt.networkProto = .ipv4 ∨ pkt.networkProto = .ipv6 then
      some (endpointObject (formatNetworkAddrs pkt 46 46).1 (jsonPorts pkt).1)
    else none)

def destinationMember : Name × Option Written :=
  (⟨ascii "destination",by decide⟩,
    if pkt.networkProto = .ipv4 ∨ pkt.networkProto = .ipv6 then
      some (endpointObject (formatNetworkAddrs pkt 46 46).2 (jsonPorts pkt).2)
    else none)

def tcpMember : Name × Option Written :=
  (⟨ascii "tcp",by decide⟩,if pkt.transportProto = .tcp then some (tcpObject pkt.transport.getTcp.flags) else none)

def dnsMember : Name × Option Written :=
  (⟨ascii "dns",by decide⟩,if pkt.hasDns then pkt.dns.questions.head?.map dnsObject else none)

/-- The members of the object of a packet. -/
def packetMembers : List (Name × Option Written) :=
  [(⟨ascii "timestamp",by decide⟩,some (escapedString (timestampText clock pkt.timestamp))),lengthMember pkt,
   malformedMember pkt,protocolMember pkt,sourceMember pkt,destinationMember pkt,tcpMember pkt,dnsMember pkt]

theorem packetMembers_nodup : ((packetMembers clock pkt).map fun m => m.1.bytes).Nodup :=
  show [ascii "timestamp",ascii "captured_length",ascii "malformed",ascii "protocol",ascii "source",ascii "destination",
    ascii "tcp",ascii "dns"].Nodup by decide

def packetObject : Written := .object (packetMembers clock pkt) (packetMembers_nodup clock pkt)

end Members

theorem endpointObject_text (addr : Bytes) (port : Option UInt16) :
    jsonEndpoint addr port = colon :: (endpointObject addr port).text := by
  rw [endpointObject, Written.object_text]
  cases port with
  | none =>
    simp [jsonEndpoint, Written.piece, memberText, escapedString_text, ascii]
    decide
  | some port =>
    simp [jsonEndpoint, Written.piece, memberText, escapedString_text, Written.number, ascii]
    decide

theorem tcpObject_text (flags : UInt8) :
    (tcpObject flags).text = ascii "\x7b\"flags\":[" ++ [comma].intercalate (jsonFlagNames flags) ++ ascii "]\x7d" := by
  rw [tcpObject, Written.object_text]
  simp [memberText, Written.array, arrayText, jsonFlagNames, escapedString_text, ascii, Function.comp_def]
  decide

theorem dnsObject_text (q : DnsQuestion) :
    (dnsObject q).text = ascii "\x7b\"question\":" ++ jsonWriteEscaped q.name ++ ascii ",\"type\":" ++
      jsonWriteEscaped (nsDnsTypeName q.type 16) ++ ascii "\x7d" := by
  rw [dnsObject, Written.object_text]
  simp [Written.piece, memberText, escapedString_text, ascii]
  decide

section Line
variable (clock : Clock) (pkt : Packet)

theorem endpoints_text :
    (if pkt.networkProto = .ipv4 ∨ pkt.networkProto = .ipv6 then
      ascii ",\"source\"" ++ jsonEndpoint (formatNetworkAddrs pkt 46 46).1 (jsonPorts pkt).1 ++ ascii ",\"destination\"" ++
        jsonEndpoint (formatNetworkAddrs pkt 46 46).2 (jsonPorts pkt).2
    else []) = Written.piece (sourceMember pkt) ++ Written.piece (destinationMember pkt) := by
  unfold sourceMember destinationMember
  split
  · rw [endpointObject_text, endpointObject_text, List.append_assoc]
    rfl
  · rfl

theorem tcp_text :
    (if pkt.transportProto = .tcp then
      ascii ",\"tcp\":\x7b\"flags\":[" ++ [comma].intercalate (jsonFlagNames pkt.transport.getTcp.flags) ++ ascii "]\x7d"
    else []) = Written.piece (tcpMember pkt) := by
  unfold tcpMember
  split
  · have hpiece : ∀ w : Written, Written.piece (⟨ascii "tcp",by decide⟩,some w) = ascii ",\"tcp\":" ++ w.text := fun w => rfl
    rw [hpiece, tcpObject_text]
    rfl
  · rfl

theorem fixedMembers_text :
    openBrace :: (memberText (ascii "timestamp") (jsonWriteEscaped (timestampText clock pkt.timestamp)) ++
        Written.piece (lengthMember pkt) ++ Written.piece (malformedMember pkt) ++ Written.piece (protocolMember pkt)) =
      ascii "\x7b\"timestamp\":" ++ jsonWriteEscaped (timestampText clock pkt.timestamp) ++ ascii ",\"captured_length\":" ++
        decimal pkt.capturedLength ++ ascii ",\"malformed\":" ++ ascii (if pkt.malformed then "true" else "false") ++
        ascii ",\"protocol\":" ++ jsonWriteEscaped (ascii (nsProtoName (topProtocol pkt))) := by
  simp [memberText, Written.piece, lengthMember, malformedMember, protocolMember, escapedString_text, Written.number,
    Written.bool, ascii]
  decide

theorem packetObject_text :
    (packetObject clock pkt).text =
      openBrace :: (memberText (ascii "timestamp") (jsonWriteEscaped (timestampText clock pkt.timestamp)) ++
        Written.piece (lengthMember pkt) ++ Written.piece (malformedMember pkt) ++ Written.piece (protocolMember pkt)) ++
      (Written.piece (sourceMember pkt) ++ Written.piece (destinationMember pkt)) ++ Written.piece (tcpMember pkt) ++
      Written.piece (dnsMember pkt) ++ ascii "\x7d" := by
  rw [packetObject]
  simp only [packetMembers, Written.object_text, List.flatMap_cons, List.flatMap_nil, List.append_assoc, List.append_nil,
    List.cons_append]
  rfl

/-- The line of a packet is the text of its object. -/
theorem printJsonLine_text : printJsonLine clock pkt = (packetObject clock pkt).text ++ [newline] := by
  have hpiece : ∀ w : Written, Written.piece (⟨ascii "dns",by decide⟩,some w) = ascii ",\"dns\":" ++ w.text := fun w => rfl
  rw [packetObject_text, fixedMembers_text, ← endpoints_text, ← tcp_text]
  unfold printJsonLine dnsMember
  cases hd : pkt.hasDns with
  | false => rfl
  | true =>
    cases hq : pkt.dns.questions with
    | nil => rfl
    | cons q rest =>
      simp only [if_true, List.head?_cons, Option.map_some]
      rw [hpiece, dnsObject_text]
      rfl

end Line

/-! ## What a reader learns -/

/-- The name of a decoded layer. -/
def layerName : Proto → Option String
  | .unknown => none
  | .arp => some "ARP"
  | .ipv4 => some "IPv4"
  | .ipv6 => some "IPv6"
  | .tcp => some "TCP"
  | .udp => some "UDP"
  | .icmp => some "ICMP"
  | .icmpv6 => some "ICMPv6"
  | .dns => some "DNS"

/-- The name of the top layer of a packet: DNS, else the transport, else the network. -/
def topLayerName (pkt : Packet) : String :=
  if pkt.hasDns then "DNS"
  else ((layerName pkt.transportProto).or (layerName pkt.networkProto)).getD "Unknown"

/-- The addresses of a packet with an IP header, as texts. -/
def ipTexts (pkt : Packet) : Option (Bytes × Bytes) :=
  match pkt.networkProto with
  | .ipv4 => some (ipv4Text pkt.net.getIpv4.source,ipv4Text pkt.net.getIpv4.destination)
  | .ipv6 => some (ipv6Text pkt.net.getIpv6.source,ipv6Text pkt.net.getIpv6.destination)
  | _ => none

/-- The ports of a packet with a TCP or UDP header. -/
def ports (pkt : Packet) : Option (UInt16 × UInt16) :=
  match pkt.transportProto with
  | .tcp => some (pkt.transport.getTcp.sourcePort,pkt.transport.getTcp.destinationPort)
  | .udp => some (pkt.transport.getUdp.sourcePort,pkt.transport.getUdp.destinationPort)
  | _ => none

/-- The flags of a TCP header by the positions of their bits. -/
def tcpFlagBits : List (ℕ × Bytes) :=
  [(0,ascii "FIN"),(1,ascii "SYN"),(2,ascii "RST"),(3,ascii "PSH"),(4,ascii "ACK"),(5,ascii "URG"),(6,ascii "ECE"),
   (7,ascii "CWR")]

def textValue (s : Bytes) : Value := .string (units s)

/-- An optional endpoint that is there with its address and has a port when there is one. -/
structure ShowsEndpoint (endpoint : Option Value) (ip : Option Bytes) (port : Option UInt16) : Prop where
  present : endpoint.isSome = ip.isSome
  ip : ∀ e ∈ endpoint, e.member (ascii "ip") = ip.map textValue
  port : ∀ e ∈ endpoint, e.member (ascii "port") = port.map fun p => .number p.toNat 0

/-- The names are those of the set bits, each once. -/
def ListsFlags (names : List Bytes) (flags : UInt8) : Prop :=
  names.Nodup ∧ ∀ name, name ∈ names ↔ ∃ i, (i,name) ∈ tcpFlagBits ∧ flags.toNat.testBit i = true

/-- The value tells what the packet is. -/
structure Shows (pkt : Packet) (v : Value) : Prop where
  isObject : ∃ members, v = .object members
  distinctNames : DistinctNames v
  capturedLength : v.member (ascii "captured_length") = some (.number pkt.capturedLength 0)
  malformed : v.member (ascii "malformed") = some (.bool pkt.malformed)
  protocol : v.member (ascii "protocol") = some (textValue (ascii (topLayerName pkt)))
  source : ShowsEndpoint (v.member (ascii "source")) ((ipTexts pkt).map Prod.fst) ((ports pkt).map Prod.fst)
  destination : ShowsEndpoint (v.member (ascii "destination")) ((ipTexts pkt).map Prod.snd) ((ports pkt).map Prod.snd)
  tcp : (v.member (ascii "tcp")).isSome = true ↔ pkt.transportProto = .tcp
  flags : ∀ tcp ∈ v.member (ascii "tcp"), ∃ names, ListsFlags names pkt.transport.getTcp.flags ∧
    tcp.member (ascii "flags") = some (.array (names.map textValue))
  dns : (v.member (ascii "dns")).isSome = true ↔ pkt.hasDns = true ∧ 0 < pkt.dns.decodedQuestionCount

theorem topLayerName_eq (pkt : Packet) : nsProtoName (topProtocol pkt) = topLayerName pkt := by
  unfold topProtocol topLayerName
  split
  · rfl
  · cases pkt.transportProto <;> first | rfl | (cases pkt.networkProto <;> rfl)

theorem printable_nsProtoName (proto : Proto) : Within Printable (ascii (nsProtoName proto)) := by
  cases proto <;> decide

theorem escapedString_value {s : Bytes} (h : Within Printable s) : (escapedString s).value = textValue s := by
  change Value.string (units (cString s)) = textValue s
  rw [cString_of_printable h]
  rfl

theorem endpointObject_ip (addr : Bytes) (port : Option UInt16) :
    (endpointObject addr port).value.member (ascii "ip") = some (escapedString addr).value :=
  Written.object_member _ (List.mem_cons_self)

theorem endpointObject_port (addr : Bytes) (port : Option UInt16) :
    (endpointObject addr port).value.member (ascii "port") = port.map fun p => .number p.toNat 0 := by
  have hmember : (endpointObject addr port).value.member (ascii "port") =
      (port.map fun p => Written.number p.toNat).map Written.value :=
    Written.object_member _ (List.mem_cons_of_mem _ List.mem_cons_self)
  rw [hmember, Option.map_map]
  rfl

theorem showsEndpoint_object {ip : Bytes} (h : Within Printable ip) (port : Option UInt16) :
    ShowsEndpoint (some (endpointObject ip port).value) (some ip) port := by
  refine ⟨rfl,?_,?_⟩
  · rintro e ⟨rfl⟩
    rw [endpointObject_ip, escapedString_value h]
    rfl
  · rintro e ⟨rfl⟩
    exact endpointObject_port ip port

theorem showsEndpoint_none (port : Option UInt16) : ShowsEndpoint none none port := by
  refine ⟨rfl,?_,?_⟩ <;> rintro e ⟨⟩

theorem jsonPorts_eq (pkt : Packet) : jsonPorts pkt = ((ports pkt).map Prod.fst,(ports pkt).map Prod.snd) := by
  unfold jsonPorts ports
  cases pkt.transportProto <;> rfl

/-- The table of the source has each flag once, at its bit. -/
theorem tcpFlagNames_perm : tcpFlagNames.Perm (tcpFlagBits.map fun b => (UInt8.ofNat (2 ^ b.1),b.2)) := by decide

theorem and_bit_ne_zero {flags : UInt8} {i : ℕ} (h : i < 8) :
    flags &&& UInt8.ofNat (2 ^ i) ≠ 0 ↔ flags.toNat.testBit i = true := by
  have hbit : (UInt8.ofNat (2 ^ i)).toNat = 2 ^ i := UInt8.toNat_ofNat_of_lt' (Nat.pow_lt_pow_right (by decide) h)
  rw [ne_eq, ← UInt8.toNat_inj, UInt8.toNat_and, hbit, Nat.and_two_pow]
  cases flags.toNat.testBit i <;> simp

def setFlagNames (flags : UInt8) : List Bytes := (tcpFlagNames.filter fun f => flags &&& f.1 ≠ 0).map Prod.snd

theorem setFlagNames_listsFlags (flags : UInt8) : ListsFlags (setFlagNames flags) flags := by
  refine ⟨?_,?_⟩
  · have hnames : (tcpFlagNames.map Prod.snd).Nodup := by decide
    exact hnames.sublist (List.filter_sublist.map Prod.snd)
  · intro name
    have hlimit : ∀ b ∈ tcpFlagBits, b.1 < 8 := by decide
    simp only [setFlagNames, List.mem_map, List.mem_filter, tcpFlagNames_perm.mem_iff, decide_eq_true_eq]
    constructor
    · rintro ⟨f,⟨⟨b,hb,rfl⟩,hset⟩,rfl⟩
      exact ⟨b.1,hb,(and_bit_ne_zero (hlimit b hb)).mp hset⟩
    · rintro ⟨i,hi,hset⟩
      exact ⟨_,⟨⟨(i,name),hi,rfl⟩,(and_bit_ne_zero (hlimit _ hi)).mpr hset⟩,rfl⟩

theorem tcpObject_flags (flags : UInt8) :
    (tcpObject flags).value.member (ascii "flags") = some (.array ((setFlagNames flags).map textValue)) := by
  have hprintable : ∀ f ∈ tcpFlagNames, Within Printable f.2 := by decide
  have hvalues : ((tcpFlagNames.filter fun f => flags &&& f.1 ≠ 0).map fun f => escapedString f.2).map Written.value =
      (setFlagNames flags).map textValue := by
    rw [setFlagNames, List.map_map, List.map_map]
    refine List.map_congr_left ?_
    intro f hf
    exact escapedString_value (hprintable f (List.mem_of_mem_filter hf))
  rw [← hvalues]
  exact Written.object_member _ List.mem_cons_self

section Packet
variable (clock : Clock) (pkt : Packet)

theorem packetObject_member {m : Name × Option Written} (h : m ∈ packetMembers clock pkt) :
    (packetObject clock pkt).value.member m.1.bytes = m.2.map Written.value :=
  Written.object_member (packetMembers_nodup clock pkt) h

theorem ipTexts_isSome : (ipTexts pkt).isSome = true ↔ pkt.networkProto = .ipv4 ∨ pkt.networkProto = .ipv6 := by
  unfold ipTexts
  cases pkt.networkProto <;> simp

/-- The addresses fit their buffers. -/
theorem formatNetworkAddrs_eq {texts : Bytes × Bytes} (h : ipTexts pkt = some texts) :
    formatNetworkAddrs pkt 46 46 = texts ∧ Within Printable texts.1 ∧ Within Printable texts.2 := by
  have htext4 : ∀ addr, nsFormatIpv4 addr 46 = ipv4Text addr := fun addr =>
    snprintf_of_lt ((ipv4Text_length_le addr).trans_lt (by decide))
  have htext6 : ∀ addr, nsFormatIpv6 addr 46 = ipv6Text addr := fun addr =>
    snprintf_of_lt ((ipv6Text_length_le addr).trans_lt (by decide))
  have hsource4 : Within Printable (ipv4Text pkt.net.getIpv4.source) := printable_ipv4Text _
  have hdestination4 : Within Printable (ipv4Text pkt.net.getIpv4.destination) := printable_ipv4Text _
  have hsource6 : Within Printable (ipv6Text pkt.net.getIpv6.source) := printable_ipv6Text _
  have hdestination6 : Within Printable (ipv6Text pkt.net.getIpv6.destination) := printable_ipv6Text _
  unfold ipTexts at h
  unfold formatNetworkAddrs
  rw [htext4, htext4, htext6, htext6]
  cases hn : pkt.networkProto with
  | ipv4 =>
    rw [hn] at h
    obtain rfl := Option.some.inj h
    simp only [hsource4, hdestination4, and_self]
  | ipv6 =>
    rw [hn] at h
    obtain rfl := Option.some.inj h
    simp only [hsource6, hdestination6, and_self]
  | unknown | arp | tcp | udp | icmp | icmpv6 | dns =>
    rw [hn] at h
    cases h

theorem members_endpoints :
    ShowsEndpoint ((sourceMember pkt).2.map Written.value) ((ipTexts pkt).map Prod.fst) ((ports pkt).map Prod.fst) ∧
    ShowsEndpoint ((destinationMember pkt).2.map Written.value) ((ipTexts pkt).map Prod.snd) ((ports pkt).map Prod.snd) := by
  have hip := ipTexts_isSome pkt
  unfold sourceMember destinationMember
  rw [jsonPorts_eq]
  cases htexts : ipTexts pkt with
  | none =>
    rw [htexts] at hip
    have hno : ¬(pkt.networkProto = .ipv4 ∨ pkt.networkProto = .ipv6) := by
      intro h
      cases hip.mpr h
    rw [if_neg hno, if_neg hno]
    exact ⟨showsEndpoint_none _,showsEndpoint_none _⟩
  | some texts =>
    rw [htexts] at hip
    obtain ⟨hformat,hsource,hdestination⟩ := formatNetworkAddrs_eq pkt htexts
    rw [if_pos (hip.mp rfl), if_pos (hip.mp rfl), hformat]
    exact ⟨showsEndpoint_object hsource _,showsEndpoint_object hdestination _⟩

theorem packetObject_protocol :
    (packetObject clock pkt).value.member (ascii "protocol") = some (textValue (ascii (topLayerName pkt))) := by
  have hmember := packetObject_member clock pkt (m := protocolMember pkt) (by simp [packetMembers])
  rw [← topLayerName_eq, ← escapedString_value (printable_nsProtoName _)]
  exact hmember

theorem packetObject_source : (packetObject clock pkt).value.member (ascii "source") = (sourceMember pkt).2.map Written.value :=
  packetObject_member clock pkt (m := sourceMember pkt) (by simp [packetMembers])

theorem packetObject_destination :
    (packetObject clock pkt).value.member (ascii "destination") = (destinationMember pkt).2.map Written.value :=
  packetObject_member clock pkt (m := destinationMember pkt) (by simp [packetMembers])

theorem packetObject_tcp : (packetObject clock pkt).value.member (ascii "tcp") = (tcpMember pkt).2.map Written.value :=
  packetObject_member clock pkt (m := tcpMember pkt) (by simp [packetMembers])

theorem packetObject_dns : (packetObject clock pkt).value.member (ascii "dns") = (dnsMember pkt).2.map Written.value :=
  packetObject_member clock pkt (m := dnsMember pkt) (by simp [packetMembers])

theorem tcpMember_isSome : ((tcpMember pkt).2.map Written.value).isSome = true ↔ pkt.transportProto = .tcp := by
  unfold tcpMember
  by_cases h : pkt.transportProto = .tcp <;> simp [h]

theorem dnsMember_isSome :
    ((dnsMember pkt).2.map Written.value).isSome = true ↔ pkt.hasDns = true ∧ 0 < pkt.dns.decodedQuestionCount := by
  unfold dnsMember DnsInfo.decodedQuestionCount
  cases pkt.hasDns with
  | false => simp
  | true => cases pkt.dns.questions <;> simp

theorem packetObject_shows : Shows pkt (packetObject clock pkt).value where
  isObject := ⟨_,rfl⟩
  distinctNames := (packetObject clock pkt).distinctNames
  capturedLength := packetObject_member clock pkt (m := lengthMember pkt) (by simp [packetMembers])
  malformed := packetObject_member clock pkt (m := malformedMember pkt) (by simp [packetMembers])
  protocol := packetObject_protocol clock pkt
  source := by
    rw [packetObject_source]
    exact (members_endpoints pkt).1
  destination := by
    rw [packetObject_destination]
    exact (members_endpoints pkt).2
  tcp := by
    rw [packetObject_tcp]
    exact tcpMember_isSome pkt
  flags := by
    intro tcp htcp
    rw [packetObject_tcp, tcpMember] at htcp
    obtain ⟨w,hw,rfl⟩ := Option.map_eq_some_iff.mp htcp
    obtain ⟨_,⟨⟩⟩ := Option.ite_none_right_eq_some.mp hw
    exact ⟨_,setFlagNames_listsFlags _,tcpObject_flags _⟩
  dns := by
    rw [packetObject_dns]
    exact dnsMember_isSome pkt

end Packet

/-- The line printed for a parsed packet is one JSON object that tells what the packet is. -/
theorem printJsonLine_shows (clock : Clock) (data : Bytes) (originalLength : ℕ) (timestamp : Timestamp) (number : UInt64)
    (linkType : LinkType) :
    ∃ body v, printJsonLine clock (nsPacketParse data originalLength timestamp number linkType) = body ++ [newline] ∧
      Within Printable body ∧ parse body = some v ∧
      Shows (nsPacketParse data originalLength timestamp number linkType) v := by
  refine ⟨_,_,printJsonLine_text clock _,Written.printable _,(Written.spells _).parse,packetObject_shows clock _⟩

end Netscope.JsonOutput
