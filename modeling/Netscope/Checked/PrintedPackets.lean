import Netscope.Checked.PrintedText
import Netscope.Layers.PayloadView

/-! # Printing never faults

The printer reads the members of a parsed packet that the parser wrote, the decoded
slots of its DNS message and nothing behind its buffers. What it prints is what the
functional model prints.
-/
namespace Netscope.Checked
open ByteString PartialMemory Numerals ByteClasses TerminalOutput Layers

/-! ## The members that the tags select -/

/-- The member of each union is the one its tag names. -/
structure MembersTagged (pkt : Netscope.Packet) : Prop where
  net : netTag pkt.net = pkt.networkProto
  transport : transportTag pkt.transport = pkt.transportProto

/-- The time of a packet is that of its frame, too. -/
structure TaggedOf (c : Capture) (pkt : Netscope.Packet) : Prop extends MembersTagged pkt where
  timestamp : pkt.timestamp = c.timestamp

section Tagged
variable {c : Capture} {p : Netscope.Packet} (h : TaggedOf c p)
include h

theorem TaggedOf.setPayload (n k : ℕ) : TaggedOf c (Netscope.nsPacketSetPayload p n k) := by
  rw [nsPacketSetPayload_eq]
  exact ⟨⟨h.net,h.transport⟩,h.timestamp⟩

theorem TaggedOf.application (data : Bytes) (offset : ℕ) (srcPort dstPort : UInt16) :
    TaggedOf c (Netscope.nsPacketParseDnsIfApplicable (Netscope.nsPacketSetPayload p data.length offset) data offset
      srcPort dstPort) := by
  have hset := h.setPayload data.length offset
  rcases dnsIfApplicable_cases (Netscope.nsPacketSetPayload p data.length offset) data offset srcPort dstPort with
    hsame | ⟨info,_,_,_,heq⟩
  · rwa [hsame]
  · rw [heq]
    exact ⟨⟨hset.net,hset.transport⟩,hset.timestamp⟩

theorem TaggedOf.transportStep (data : Bytes) (offset : ℕ) (proto : UInt8) :
    TaggedOf c (Netscope.nsPacketParseTransport p data offset proto) := by
  have houtcome := nsPacketParseTransport_outcome p data offset proto
  generalize Netscope.nsPacketParseTransport p data offset proto = q at houtcome ⊢
  cases houtcome with
  | @tcp info headerLen _ =>
    apply TaggedOf.application
    exact ⟨⟨h.net,rfl⟩,h.timestamp⟩
  | @udp info _ =>
    apply TaggedOf.application
    exact ⟨⟨h.net,rfl⟩,h.timestamp⟩
  | icmp | icmpv6 => exact ⟨⟨h.net,rfl⟩,h.timestamp⟩
  | rejected => exact ⟨⟨h.net,h.transport⟩,h.timestamp⟩
  | unsupported => exact h

end Tagged

theorem walkRule_taggedOf (c : Capture) : WalkRule c (TaggedOf c) (TaggedOf c) where
  unknown _ := ⟨⟨rfl,rfl⟩,rfl⟩
  truncated := ⟨⟨rfl,rfl⟩,rfl⟩
  link _ _ := TaggedOf.setPayload ⟨⟨rfl,rfl⟩,rfl⟩ _ _
  setPayload n k h := h.setPayload n k
  arp _ h _ := ⟨⟨rfl,h.transport⟩,h.timestamp⟩
  ipv4 _ h _ := ⟨⟨rfl,h.transport⟩,h.timestamp⟩
  ipv6 _ h _ := ⟨⟨rfl,h.transport⟩,h.timestamp⟩
  stop h := h
  reject _ h := ⟨⟨h.net,h.transport⟩,h.timestamp⟩
  transport offset proto h _ := h.transportStep c.data offset proto

/-! ## Times -/

/-- The calendar sets the two times of a second, and their texts fit their buffers. -/
structure Converts (cal : Calendar) (clock : Clock) (t : Int64) : Prop where
  localtime : cal.localtime t = some (clock.localTime t)
  gmtime : cal.gmtime t = some (clock.universalTime t)
  localFits : (clock.localTime t).length < 16
  universalFits : (clock.universalTime t).length < 32

theorem strftime_holds {size : ℕ} {text : Bytes} {buf : Cells} (hfits : text.length < size) (hbuf : buf.length = size) :
    ∃ buf', strftime buf size (some text) = .ok (buf',text.length) ∧ Holds size text buf' := by
  have hroom : (text ++ [0]).length ≤ buf.length := by
    rw [List.length_append, List.length_singleton]
    omega
  have hstore := storeRange_holding [] (text ++ [0]) hroom
  rw [holding_nil, List.length_nil, List.nil_append] at hstore
  rw [strftime, use_some, ok_bind, if_pos hfits, hstore]
  refine ⟨_,rfl,?_,_,rfl⟩
  rw [holding_length, List.length_drop]
  omega

section Print
variable {cal : Calendar} {clock : Clock}

/-- A time with its fraction behind it. -/
theorem printTime_holds {size : ℕ} {text : Bytes} (hfits : text.length < size) {buf : Cells} (hbuf : buf.length = size)
    (fraction : Bytes) :
    ∃ buf₁ buf₂, strftime buf size (some text) = .ok (buf₁,text.length) ∧
      printInto buf₁ text.length (size - text.length) fraction = .ok buf₂ ∧
      Holds size (text ++ snprintf (size - text.length) fraction) buf₂ := by
  obtain ⟨buf₁,htime,hholds⟩ := strftime_holds hfits hbuf
  obtain ⟨buf₂,hprint,hall⟩ := hholds.begins.printInto hfits fraction
  exact ⟨buf₁,buf₂,htime,hprint,hall⟩

theorem formatTimestamp_ok {ts : Timestamp} (htime : Converts cal clock ts.seconds) :
    ∃ buf, formatTimestamp cal ts (fresh 16) 16 = .ok buf ∧ loadString buf = .ok (Netscope.formatTimestamp clock ts 16) := by
  obtain ⟨buf₁,buf₂,hset,hprint,hholds⟩ := printTime_holds htime.localFits (fresh_length 16)
    ([dot] ++ zeroPadded 3 (ts.microseconds.toInt.tdiv 1000))
  refine ⟨buf₂,?_,hholds.loadString (clean_formatTimestamp clock ts 16)⟩
  rw [formatTimestamp, htime.localtime, hset, ok_bind]
  dsimp only
  rw [sizeSub_ok htime.localFits.le, ok_bind, hprint]

end Print

/-! ## Layers -/

section Layers
variable {pkt : Netscope.Packet} {out : Packet} (hrep : Represents pkt out)
include hrep

/-- The two packets differ in the parts that a tag must select. -/
theorem Represents.out_eq :
    out = ⟨{ pkt with eth := out.layers.eth, net := out.layers.net, transport := out.layers.transport,
                      dns := out.layers.dns },out.dns⟩ := by
  have h := hrep.rest
  obtain ⟨layers,info⟩ := out
  dsimp only at h ⊢
  rw [h]

theorem Represents.networkProto : out.layers.networkProto = pkt.networkProto := by rw [hrep.out_eq]
theorem Represents.transportProto : out.layers.transportProto = pkt.transportProto := by rw [hrep.out_eq]
theorem Represents.hasDns : out.layers.hasDns = pkt.hasDns := by rw [hrep.out_eq]

variable (htags : MembersTagged pkt)
include htags

theorem netMember_eq {α : Type} {proto : Proto} (h : pkt.networkProto = proto) (hne : proto ≠ .unknown)
    (get : NetUnion → α) : netMember out.layers.net proto get = .ok (get pkt.net) := by
  have hnet : out.layers.net = pkt.net := hrep.net (h ▸ hne)
  rw [netMember, hnet, htags.net, if_pos h, pure_eq_ok]

theorem transportMember_eq {α : Type} {proto : Proto} (h : pkt.transportProto = proto) (hne : proto ≠ .unknown)
    (get : TransportUnion → α) : transportMember out.layers.transport proto get = .ok (get pkt.transport) := by
  have htransport : out.layers.transport = pkt.transport := hrep.transport (h ▸ hne)
  rw [transportMember, htransport, htags.transport, if_pos h, pure_eq_ok]

theorem formatNetworkAddrs_holds {m n : ℕ} (hm : 0 < m) (hn : 0 < n) {src dst : Cells} (hsrc : src.length = m)
    (hdst : dst.length = n) :
    ∃ src' dst', formatNetworkAddrs out src m dst n = .ok (src',dst') ∧
      Holds m (Netscope.formatNetworkAddrs pkt m n).1 src' ∧ Holds n (Netscope.formatNetworkAddrs pkt m n).2 dst' := by
  unfold formatNetworkAddrs Netscope.formatNetworkAddrs
  rw [hrep.networkProto]
  cases hp : pkt.networkProto with
  | ipv4 =>
    obtain ⟨src',h₁,hholds₁⟩ := nsFormatIpv4_holds hm hsrc pkt.net.getIpv4.source
    obtain ⟨dst',h₂,hholds₂⟩ := nsFormatIpv4_holds hn hdst pkt.net.getIpv4.destination
    simp only [netMember_eq hrep htags hp (by decide), ok_bind, h₁, h₂]
    exact ⟨src',dst',rfl,hholds₁,hholds₂⟩
  | ipv6 =>
    obtain ⟨src',h₁,hholds₁⟩ := nsFormatIpv6_holds hm hsrc pkt.net.getIpv6.source
    obtain ⟨dst',h₂,hholds₂⟩ := nsFormatIpv6_holds hn hdst pkt.net.getIpv6.destination
    simp only [netMember_eq hrep htags hp (by decide), ok_bind, h₁, h₂]
    exact ⟨src',dst',rfl,hholds₁,hholds₂⟩
  | _ =>
    obtain ⟨src',h₁,hholds₁⟩ := printInto_holds hm hsrc (ascii "?")
    obtain ⟨dst',h₂,hholds₂⟩ := printInto_holds hn hdst (ascii "?")
    simp only [h₁, h₂, ok_bind]
    exact ⟨src',dst',rfl,hholds₁,hholds₂⟩

omit hrep htags in
theorem printEndpoint_holds {addr : Cells} {text : Bytes} (h : loadString addr = .ok text) (port : UInt16) :
    ∃ buf, printEndpoint addr port = .ok buf ∧ Holds 64 (snprintf 64 (text ++ [colon] ++ decimal port.toNat)) buf := by
  rw [printEndpoint, h, ok_bind]
  exact printInto_holds (by decide) (fresh_length 64) _

omit hrep htags in
theorem printAddress_holds {addr : Cells} {text : Bytes} (h : loadString addr = .ok text) :
    ∃ buf, printAddress addr = .ok buf ∧ Holds 64 (snprintf 64 text) buf := by
  rw [printAddress, h, ok_bind]
  exact printInto_holds (by decide) (fresh_length 64) _

/-- The buffers of a line hold its parts. -/
structure PartsHold (parts : LineParts) (buffers : LineBuffers) : Prop where
  protoName : buffers.protoName = parts.protoName
  srcEp : Holds 64 parts.srcEp buffers.srcEp
  dstEp : Holds 64 parts.dstEp buffers.dstEp
  extra : Holds 128 parts.extra buffers.extra

theorem lineParts_hold {src dst : Cells} {srcText dstText : Bytes} (hsrc : loadString src = .ok srcText)
    (hdst : loadString dst = .ok dstText) :
    ∃ buffers, lineParts out src dst = .ok buffers ∧ PartsHold (Netscope.lineParts pkt srcText dstText) buffers := by
  have h128 : (zeroed 128).length = 128 := zeroed_length 128
  have hempty : Holds 128 [] (zeroed 128) := zeroed_holds (by decide)
  unfold lineParts Netscope.lineParts
  rw [hrep.transportProto]
  cases hp : pkt.transportProto with
  | tcp =>
    obtain ⟨srcEp,h₁,hholds₁⟩ := printEndpoint_holds hsrc pkt.transport.getTcp.sourcePort
    obtain ⟨dstEp,h₂,hholds₂⟩ := printEndpoint_holds hdst pkt.transport.getTcp.destinationPort
    obtain ⟨flags,h₃,hholds₃⟩ := nsTcpFlagsToString_holds pkt.transport.getTcp.flags (show 32 < 2 ^ 64 by norm_num)
      (by decide) (fresh_length 32)
    obtain ⟨extra,h₄,hholds₄⟩ := printInto_holds (by decide) h128
      (ascii "[" ++ Netscope.nsTcpFlagsToString pkt.transport.getTcp.flags 32 ++ ascii "]")
    simp only [transportMember_eq hrep htags hp (by decide), ok_bind, h₁, h₂, h₃,
      hholds₃.loadString (clean_nsTcpFlagsToString _ _), h₄]
    exact ⟨_,rfl,rfl,hholds₁,hholds₂,hholds₄⟩
  | udp =>
    obtain ⟨srcEp,h₁,hholds₁⟩ := printEndpoint_holds hsrc pkt.transport.getUdp.sourcePort
    obtain ⟨dstEp,h₂,hholds₂⟩ := printEndpoint_holds hdst pkt.transport.getUdp.destinationPort
    obtain ⟨extra,h₃,hholds₃⟩ := printInto_holds (by decide) h128 (ascii "DNS")
    simp only [transportMember_eq hrep htags hp (by decide), ok_bind, h₁, h₂, hrep.hasDns]
    cases pkt.hasDns with
    | true =>
      rw [if_pos rfl, h₃]
      exact ⟨_,rfl,rfl,hholds₁,hholds₂,hholds₃⟩
    | false => exact ⟨_,rfl,rfl,hholds₁,hholds₂,hempty⟩
  | icmp =>
    obtain ⟨srcEp,h₁,hholds₁⟩ := printAddress_holds hsrc
    obtain ⟨dstEp,h₂,hholds₂⟩ := printAddress_holds hdst
    simp only [transportMember_eq hrep htags hp (by decide), ok_bind, h₁, h₂, ← apply_ite (snprintf 128)]
    obtain ⟨extra,h₃,hholds₃⟩ := printInto_holds (by decide) h128
      (if pkt.transport.getIcmp.type = icmpEchoRequest ∨ pkt.transport.getIcmp.type = icmpEchoReply then
        nsIcmpTypeName pkt.transport.getIcmp.type ++ ascii " id=" ++ decimal pkt.transport.getIcmp.identifier.toNat ++
          ascii " seq=" ++ decimal pkt.transport.getIcmp.sequence.toNat
      else nsIcmpTypeName pkt.transport.getIcmp.type)
    rw [h₃]
    exact ⟨_,rfl,rfl,hholds₁,hholds₂,hholds₃⟩
  | icmpv6 =>
    obtain ⟨srcEp,h₁,hholds₁⟩ := printAddress_holds hsrc
    obtain ⟨dstEp,h₂,hholds₂⟩ := printAddress_holds hdst
    obtain ⟨extra,h₃,hholds₃⟩ := printInto_holds (by decide) h128 (nsIcmpv6TypeName pkt.transport.getIcmpv6.type)
    simp only [transportMember_eq hrep htags hp (by decide), ok_bind, h₁, h₂, h₃]
    exact ⟨_,rfl,rfl,hholds₁,hholds₂,hholds₃⟩
  | _ =>
    obtain ⟨srcEp,h₁,hholds₁⟩ := printAddress_holds hsrc
    obtain ⟨dstEp,h₂,hholds₂⟩ := printAddress_holds hdst
    simp only [h₁, h₂, ok_bind, hrep.networkProto]
    exact ⟨_,rfl,rfl,hholds₁,hholds₂,hempty⟩

theorem packetLine_eq (ts color reset : Bytes) :
    packetLine out ts color reset = .ok (Netscope.packetLine pkt ts color reset) := by
  obtain ⟨src,dst,haddrs,hsrc,hdst⟩ := formatNetworkAddrs_holds hrep htags (by decide) (by decide) (fresh_length 46)
    (fresh_length 46)
  obtain ⟨hsrcClean,hdstClean⟩ := clean_formatNetworkAddrs pkt 46 46
  obtain ⟨buffers,hparts,hhold⟩ := lineParts_hold hrep htags (hsrc.loadString hsrcClean) (hdst.loadString hdstClean)
  obtain ⟨_,hsrcEp,hdstEp,hextra⟩ := clean_lineParts pkt hsrcClean hdstClean
  have hlen : out.layers.capturedLength = pkt.capturedLength := by rw [hrep.out_eq]
  unfold packetLine Netscope.packetLine
  simp only [haddrs, ok_bind, hparts, hhold.protoName, hhold.srcEp.loadString hsrcEp, hhold.dstEp.loadString hdstEp,
    hhold.extra.loadString hextra, hlen]
  rfl

theorem printArpLine_eq (hp : pkt.networkProto = .arp) (color reset : Bytes) :
    printArpLine out color reset = .ok (Netscope.printArpLine pkt color reset) := by
  obtain ⟨sender,h₁,hholds₁⟩ := nsFormatIpv4_holds (by decide) (fresh_length 16) pkt.net.getArp.senderIp
  obtain ⟨target,h₂,hholds₂⟩ := nsFormatIpv4_holds (by decide) (fresh_length 16) pkt.net.getArp.targetIp
  obtain ⟨senderMac,h₃,hholds₃⟩ := nsFormatMac_holds (by decide) (fresh_length 18) pkt.net.getArp.senderMac
  unfold printArpLine Netscope.printArpLine
  simp only [netMember_eq hrep htags hp (by decide), ok_bind, h₁, h₂, h₃, hholds₁.loadString (clean_nsFormatIpv4 _ _),
    hholds₂.loadString (clean_nsFormatIpv4 _ _), hholds₃.loadString (clean_nsFormatMac _ _)]
  split_ifs <;> rfl

end Layers

/-! ## The DNS message -/

/-- The first of the decoded slots. -/
theorem element_first {α β : Type} {R : α → β → Prop} {x : α} {xs : List α} {slots : List β} {n : ℕ}
    (h : List.Forall₂ R (x :: xs) (slots.take n)) : ∃ slot, element slots 0 = .ok slot ∧ R x slot := by
  cases slots with
  | nil =>
    rw [List.take_nil] at h
    cases h
  | cons slot slots =>
    cases n with
    | zero => cases h
    | succ n =>
      cases h with
      | cons hfirst _ => exact ⟨slot,rfl,hfirst⟩

section Dns
variable {dns : DnsInfo} {info : Info} (h : InfoHolds dns info)
include h

theorem printDnsLine_eq : printDnsLine info = .ok (Netscope.printDnsLine dns) := by
  have hanswers := h.answers
  have hquestions := h.questions
  unfold printDnsLine Netscope.printDnsLine
  rw [h.isResponse, h.decodedAnswerCount, h.decodedQuestionCount, DnsInfo.decodedAnswerCount, DnsInfo.decodedQuestionCount]
  cases dns.isResponse with
  | true =>
    cases ha : dns.answers with
    | nil => rfl
    | cons a answers =>
      rw [ha] at hanswers
      obtain ⟨slot,hslot,hrecord⟩ := element_first hanswers
      simp only [Bool.true_and, List.length_cons, Nat.zero_lt_succ, decide_true, ↓reduceIte, gt_iff_lt, hslot, ok_bind,
        loadString_holds hrecord.name, loadString_holds hrecord.rdataText, hrecord.type,
        nsDnsTypeName_eq (by decide) (fresh_length 16)]
      rfl
  | false =>
    cases hq : dns.questions with
    | nil => rfl
    | cons q questions =>
      rw [hq] at hquestions
      obtain ⟨slot,hslot,hquestion⟩ := element_first hquestions
      simp only [Bool.false_and, Bool.not_false, Bool.true_and, Bool.false_eq_true, List.length_cons, Nat.zero_lt_succ,
        decide_true, ↓reduceIte, gt_iff_lt, hslot, ok_bind, loadString_holds hquestion.name, hquestion.type,
        nsDnsTypeName_eq (by decide) (fresh_length 16)]
      rfl

end Dns

/-! ## The text output -/

section Text
variable {pkt : Netscope.Packet} {out : Packet} (hrep : Represents pkt out) (htags : MembersTagged pkt)
include hrep htags

theorem printTextLine_eq {cal : Calendar} {clock : Clock} (htime : Converts cal clock pkt.timestamp.seconds)
    (opts : OutputOptions) : printTextLine cal out opts = .ok (Netscope.printTextLine clock pkt opts) := by
  obtain ⟨ts,hts,hload⟩ := formatTimestamp_ok htime
  have htop : topProtocol out.layers = topProtocol pkt := by rw [hrep.out_eq]; rfl
  have hline : malformedLine out.layers = malformedLine pkt := by rw [hrep.out_eq]; rfl
  have hmalformed : out.layers.malformed = pkt.malformed := by rw [hrep.out_eq]
  have htimestamp : out.layers.timestamp = pkt.timestamp := by rw [hrep.out_eq]
  unfold printTextLine Netscope.printTextLine
  simp only [htop, hline, hmalformed, htimestamp, hrep.networkProto, hrep.hasDns, hts, hload, ok_bind, pure_eq_ok,
    packetLine_eq hrep htags]
  cases pkt.malformed with
  | true => rfl
  | false =>
    by_cases harp : pkt.networkProto = .arp
    · simp only [Bool.false_eq_true, ↓reduceIte, harp, printArpLine_eq hrep htags harp, ok_bind]
    · cases hdns : pkt.hasDns with
      | true => simp only [Bool.false_eq_true, ↓reduceIte, harp, printDnsLine_eq (hrep.dns hdns), ok_bind]
      | false => simp only [Bool.false_eq_true, ↓reduceIte, harp, List.append_nil]

omit htags in
theorem verboseLink_eq : verboseLink out = .ok (Netscope.verboseLink pkt) := by
  have hhas : out.layers.hasEth = pkt.hasEth := by rw [hrep.out_eq]
  unfold verboseLink Netscope.verboseLink
  rw [hhas]
  cases he : pkt.hasEth with
  | true =>
    obtain ⟨destination,h₁,hholds₁⟩ := nsFormatMac_holds (by decide) (fresh_length 18) pkt.eth.destination
    obtain ⟨source,h₂,hholds₂⟩ := nsFormatMac_holds (by decide) (fresh_length 18) pkt.eth.source
    simp only [↓reduceIte, hrep.eth he, h₁, h₂, ok_bind, hholds₁.loadString (clean_nsFormatMac _ _),
      hholds₂.loadString (clean_nsFormatMac _ _)]
    rfl
  | false => rfl

theorem verboseNetwork_eq : verboseNetwork out = .ok (Netscope.verboseNetwork pkt) := by
  unfold verboseNetwork Netscope.verboseNetwork
  rw [hrep.networkProto]
  cases hp : pkt.networkProto with
  | ipv4 =>
    obtain ⟨source,h₁,hholds₁⟩ := nsFormatIpv4_holds (by decide) (fresh_length 16) pkt.net.getIpv4.source
    obtain ⟨destination,h₂,hholds₂⟩ := nsFormatIpv4_holds (by decide) (fresh_length 16) pkt.net.getIpv4.destination
    simp only [netMember_eq hrep htags hp (by decide), ok_bind, h₁, h₂, hholds₁.loadString (clean_nsFormatIpv4 _ _),
      hholds₂.loadString (clean_nsFormatIpv4 _ _)]
    rfl
  | ipv6 =>
    obtain ⟨source,h₁,hholds₁⟩ := nsFormatIpv6_holds (by decide) (fresh_length 46) pkt.net.getIpv6.source
    obtain ⟨destination,h₂,hholds₂⟩ := nsFormatIpv6_holds (by decide) (fresh_length 46) pkt.net.getIpv6.destination
    simp only [netMember_eq hrep htags hp (by decide), ok_bind, h₁, h₂, hholds₁.loadString (clean_nsFormatIpv6 _ _),
      hholds₂.loadString (clean_nsFormatIpv6 _ _)]
    rfl
  | _ => rfl

theorem verboseTransport_eq : verboseTransport out = .ok (Netscope.verboseTransport pkt) := by
  unfold verboseTransport Netscope.verboseTransport
  rw [hrep.transportProto]
  cases hp : pkt.transportProto with
  | tcp =>
    obtain ⟨flags,hflags,hholds⟩ := nsTcpFlagsToString_holds pkt.transport.getTcp.flags (show 32 < 2 ^ 64 by norm_num)
      (by decide) (fresh_length 32)
    simp only [transportMember_eq hrep htags hp (by decide), ok_bind, hflags,
      hholds.loadString (clean_nsTcpFlagsToString _ _)]
    rfl
  | udp =>
    rw [transportMember_eq hrep htags hp (by decide)]
    rfl
  | _ => rfl

theorem printVerboseBlock_eq {cal : Calendar} {clock : Clock} (htime : Converts cal clock pkt.timestamp.seconds) :
    printVerboseBlock cal out = .ok (Netscope.printVerboseBlock clock pkt) := by
  obtain ⟨ts,hts,hload⟩ := formatTimestamp_ok htime
  have htimestamp : out.layers.timestamp = pkt.timestamp := by rw [hrep.out_eq]
  have hnumber : out.layers.number = pkt.number := by rw [hrep.out_eq]
  have hcaptured : out.layers.capturedLength = pkt.capturedLength := by rw [hrep.out_eq]
  have hpayload : out.layers.payloadLength = pkt.payloadLength := by rw [hrep.out_eq]
  unfold printVerboseBlock Netscope.printVerboseBlock
  simp only [htimestamp, hts, hload, ok_bind, verboseLink_eq hrep, verboseNetwork_eq hrep htags,
    verboseTransport_eq hrep htags, hnumber, hcaptured, hpayload]
  rfl

end Text

/-! ## The JSON output -/

section Json
variable {pkt : Netscope.Packet} {out : Packet} (hrep : Represents pkt out) (htags : MembersTagged pkt)

theorem jsonWriteEscaped_eq {size : ℕ} {text : Bytes} {buf : Cells} (h : Holds size text buf) :
    jsonWriteEscaped buf = .ok (Netscope.jsonWriteEscaped text) := by
  rw [jsonWriteEscaped, loadString_holds h]
  rfl

theorem jsonEndpoint_eq {size : ℕ} {addr : Bytes} {buf : Cells} (h : Holds size addr buf) (port : Option UInt16) :
    jsonEndpoint buf port = .ok (Netscope.jsonEndpoint addr port) := by
  unfold jsonEndpoint
  rw [jsonWriteEscaped_eq h]
  rfl

include hrep htags

theorem jsonPorts_eq : jsonPorts out = .ok (Netscope.jsonPorts pkt) := by
  unfold jsonPorts Netscope.jsonPorts
  rw [hrep.transportProto]
  cases hp : pkt.transportProto with
  | tcp =>
    rw [transportMember_eq hrep htags hp (by decide)]
    rfl
  | udp =>
    rw [transportMember_eq hrep htags hp (by decide)]
    rfl
  | _ => rfl

theorem jsonAddresses_eq :
    jsonAddresses out =
      .ok (if pkt.networkProto = .ipv4 ∨ pkt.networkProto = .ipv6 then
        ascii ",\"source\"" ++ Netscope.jsonEndpoint (Netscope.formatNetworkAddrs pkt 46 46).1 (Netscope.jsonPorts pkt).1 ++
          ascii ",\"destination\"" ++
          Netscope.jsonEndpoint (Netscope.formatNetworkAddrs pkt 46 46).2 (Netscope.jsonPorts pkt).2
      else []) := by
  obtain ⟨src,dst,haddrs,hsrc,hdst⟩ := formatNetworkAddrs_holds hrep htags (by decide) (by decide) (fresh_length 46)
    (fresh_length 46)
  unfold jsonAddresses
  rw [hrep.networkProto]
  split
  · simp only [haddrs, ok_bind, jsonPorts_eq hrep htags, jsonEndpoint_eq hsrc, jsonEndpoint_eq hdst]
    rfl
  · rfl

theorem jsonFlags_eq :
    jsonFlags out =
      .ok (if pkt.transportProto = .tcp then
        ascii ",\"tcp\":\x7b\"flags\":[" ++ [comma].intercalate (jsonFlagNames pkt.transport.getTcp.flags) ++ ascii "]\x7d"
      else []) := by
  unfold jsonFlags
  rw [hrep.transportProto]
  split
  · rename_i hp
    rw [transportMember_eq hrep htags hp (by decide)]
    rfl
  · rfl

omit htags in
theorem jsonQuestion_eq :
    jsonQuestion out =
      .ok (match pkt.hasDns, pkt.dns.questions with
        | true, q :: _ =>
          ascii ",\"dns\":\x7b\"question\":" ++ Netscope.jsonWriteEscaped q.name ++ ascii ",\"type\":" ++
            Netscope.jsonWriteEscaped (Netscope.nsDnsTypeName q.type 16) ++ ascii "\x7d"
        | _, _ => []) := by
  unfold jsonQuestion
  rw [hrep.hasDns]
  cases hd : pkt.hasDns with
  | false => rfl
  | true =>
    have hinfo := hrep.dns hd
    have hquestions := hinfo.questions
    rw [hinfo.decodedQuestionCount, DnsInfo.decodedQuestionCount]
    cases hq : pkt.dns.questions with
    | nil => rfl
    | cons q questions =>
      rw [hq] at hquestions
      obtain ⟨slot,hslot,hquestion⟩ := element_first hquestions
      simp only [Bool.true_and, List.length_cons, Nat.zero_lt_succ, decide_true, ↓reduceIte, gt_iff_lt, hslot, ok_bind,
        jsonWriteEscaped_eq hquestion.name, hquestion.type, nsDnsTypeName_eq (by decide) (fresh_length 16)]
      rfl

theorem printJsonLine_eq {cal : Calendar} {clock : Clock} (htime : Converts cal clock pkt.timestamp.seconds) :
    printJsonLine cal out = .ok (Netscope.printJsonLine clock pkt) := by
  obtain ⟨buf₁,buf₂,hset,hprint,hholds⟩ := printTime_holds htime.universalFits (fresh_length 32)
    ([dot] ++ zeroPadded 3 (pkt.timestamp.microseconds.toInt.tdiv 1000) ++ ascii "Z")
  have htimestamp : out.layers.timestamp = pkt.timestamp := by rw [hrep.out_eq]
  have hcaptured : out.layers.capturedLength = pkt.capturedLength := by rw [hrep.out_eq]
  have hmalformed : out.layers.malformed = pkt.malformed := by rw [hrep.out_eq]
  have htop : topProtocol out.layers = topProtocol pkt := by rw [hrep.out_eq]; rfl
  unfold printJsonLine Netscope.printJsonLine
  simp only [htimestamp, htime.gmtime, hset, ok_bind, sizeSub_ok htime.universalFits.le, hprint,
    jsonWriteEscaped_eq hholds, hcaptured, hmalformed, htop, jsonAddresses_eq hrep htags, jsonFlags_eq hrep htags,
    jsonQuestion_eq hrep]
  rfl

end Json

/-! ## Packets -/

/-- What is printed of a packet that stands for `pkt`. -/
theorem nsOutputPacket_eq {cal : Calendar} {clock : Clock} {pkt : Netscope.Packet} {out : Packet}
    (hrep : Represents pkt out) (htags : MembersTagged pkt) (htime : Converts cal clock pkt.timestamp.seconds)
    (hcaptured : pkt.capturedLength = pkt.rawData.length) (hdata : pkt.rawData.length + 16 ≤ 2 ^ 64)
    (opts : OutputOptions) : nsOutputPacket cal out opts = .ok (Netscope.nsOutputPacket clock pkt opts) := by
  have hdump : nsHexDumpFile out.layers.rawData out.layers.capturedLength =
      .ok (Netscope.nsHexDumpFile (pkt.rawData.take pkt.capturedLength)) := by
    rw [hrep.out_eq]
    dsimp only
    rw [hcaptured, List.take_length]
    exact nsHexDumpFile_eq hdata
  unfold nsOutputPacket Netscope.nsOutputPacket
  simp only [printJsonLine_eq hrep htags htime, printTextLine_eq hrep htags htime, printVerboseBlock_eq hrep htags htime,
    hdump, ok_bind, pure_eq_ok]
  split_ifs <;> rfl

/-- Every frame is parsed and printed. -/
theorem parsed_printed (cal : Calendar) (clock : Clock) (c : Capture) (hdata : c.data.length + 16 ≤ 2 ^ 64)
    (htime : Converts cal clock c.timestamp.seconds) (opts : OutputOptions) :
    ∃ out, nsPacketParse c.data c.data.length c.originalLength c.timestamp c.number c.linkType = .ok out ∧
      Represents c.packet out ∧ nsOutputPacket cal out opts = .ok (Netscope.nsOutputPacket clock c.packet opts) := by
  have hl : c.data.length < 2 ^ 64 := by omega
  obtain ⟨out,hparse,hrep⟩ : ∃ out, _ ∧ Represents c.packet out :=
    nsPacketParse_represents hl c.originalLength c.timestamp c.number c.linkType
  have htagged := (walkRule_taggedOf c).packet
  have hraw := PayloadView.packet_rawData c
  have hcaptured := PayloadView.packet_capturedLength c
  refine ⟨out,hparse,hrep,?_⟩
  apply nsOutputPacket_eq hrep htagged.toMembersTagged
  · rwa [htagged.timestamp]
  · exact hcaptured.trans (congrArg List.length hraw.symm)
  · rwa [hraw]

/-- The two calls that `handle_packet` makes for one frame. -/
def parseAndOutput (cal : Calendar) (c : Capture) (opts : OutputOptions) : Exec Bytes := do
  let pkt ← nsPacketParse c.data c.data.length c.originalLength c.timestamp c.number c.linkType
  nsOutputPacket cal pkt opts

/-- On every frame, parsing and printing perform no undefined access and print what the
functional model prints. -/
theorem parseAndOutput_no_fault (cal : Calendar) (clock : Clock) (c : Capture) (hdata : c.data.length + 16 ≤ 2 ^ 64)
    (htime : Converts cal clock c.timestamp.seconds) (opts : OutputOptions) :
    parseAndOutput cal c opts = .ok (Netscope.nsOutputPacket clock c.packet opts) := by
  obtain ⟨out,hparse,_,hprint⟩ := parsed_printed cal clock c hdata htime opts
  rw [parseAndOutput, hparse, ok_bind, hprint]

/-- A calendar whose clock stands still. -/
def noonCalendar : Calendar := ⟨fun t => some (noon.localTime t),fun t => some (noon.universalTime t)⟩

theorem noonCalendar_converts (t : Int64) : Converts noonCalendar noon t where
  localtime := rfl
  gmtime := rfl
  localFits := (show (ascii "12:00:00").length < 16 by decide)
  universalFits := (show (ascii "2024-01-01T12:00:00").length < 32 by decide)

/-- A query with everything switched on. -/
theorem parseAndOutput_no_fault_query :
    (queryFor (.replicate 5 97)).data.length + 16 ≤ 2 ^ 64 ∧ Converts noonCalendar noon 0 ∧
      parseAndOutput noonCalendar (queryFor (.replicate 5 97)) ⟨true,true,false,true,.text⟩ =
        .ok (Netscope.nsOutputPacket noon (queryFor (.replicate 5 97)).packet ⟨true,true,false,true,.text⟩) :=
  ⟨by decide,noonCalendar_converts 0,
    parseAndOutput_no_fault noonCalendar noon (queryFor (.replicate 5 97)) (by decide) (noonCalendar_converts 0) _⟩

end Netscope.Checked
