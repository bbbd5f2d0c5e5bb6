import Netscope.Dns.NameUses
import Netscope.Dns.Transports
import Netscope.Layers.WalkRule
import Netscope.Text.JsonOutput
import Netscope.Text.TerminalOutput

/-! # The question name of a JSON line

The name of the first question travels from the wire through the decompressor into a
C string and from there through the escapes into the line. Each escape can be undone,
but the C string ends at the first zero byte of the name.
-/
namespace Netscope.WireNames
open ByteString Numerals Layers DnsName JsonOutput TerminalOutput

/-! ## The message of a packet -/

/-- A packet of these bytes before the transport step. -/
structure WithoutDns (data : Bytes) (pkt : Packet) : Prop where
  rawData : pkt.rawData = data
  hasDns : pkt.hasDns = false

/-- The DNS message of a packet is its payload. -/
def DnsOfPayload (pkt : Packet) : Prop := pkt.hasDns = true → nsParseDns pkt.payloadBytes = .ok pkt.dns

theorem WithoutDns.dnsOfPayload {data : Bytes} {p : Packet} (h : WithoutDns data p) : DnsOfPayload p := by
  intro hd
  rw [h.hasDns] at hd
  cases hd

theorem WithoutDns.setPayload {data : Bytes} {p : Packet} (h : WithoutDns data p) (n k : ℕ) :
    WithoutDns data (nsPacketSetPayload p n k) := by
  rw [nsPacketSetPayload_eq]
  exact ⟨h.rawData,h.hasDns⟩

/-- A message that the DNS step found is the payload. -/
theorem WithoutDns.dnsIfApplicable {data : Bytes} {p : Packet} (h : WithoutDns data p) (offset : ℕ) (srcPort dstPort : UInt16) :
    DnsOfPayload (nsPacketParseDnsIfApplicable (nsPacketSetPayload p data.length offset) data offset srcPort dstPort) := by
  rcases dnsIfApplicable_cases (nsPacketSetPayload p data.length offset) data offset srcPort dstPort with
    hsame | ⟨info,_,hle,hok,heq⟩
  · rw [hsame]
    exact (h.setPayload _ _).dnsOfPayload
  · intro _
    have hchunk : chunk data offset (data.length - offset) = data.drop offset := List.take_of_length_le (by simp)
    rw [heq, nsPacketSetPayload_eq, if_neg (by omega), if_neg (by omega)]
    simp only [Packet.payloadBytes, h.rawData, hchunk, hok]

theorem WithoutDns.transport {data : Bytes} {p : Packet} (h : WithoutDns data p) (offset : ℕ) (proto : UInt8) :
    DnsOfPayload (nsPacketParseTransport p data offset proto) := by
  have houtcome := nsPacketParseTransport_outcome p data offset proto
  generalize nsPacketParseTransport p data offset proto = q at houtcome ⊢
  cases houtcome with
  | @tcp info headerLen _ =>
    exact WithoutDns.dnsIfApplicable (p := { p with transport := .tcp info, transportProto := .tcp }) ⟨h.rawData,h.hasDns⟩ _ _ _
  | @udp info _ =>
    exact WithoutDns.dnsIfApplicable (p := { p with transport := .udp info, transportProto := .udp }) ⟨h.rawData,h.hasDns⟩ _ _ _
  | icmp | icmpv6 | rejected | unsupported => exact h.dnsOfPayload

theorem walkRule_dnsOfPayload (c : Capture) : WalkRule c (WithoutDns c.data) DnsOfPayload where
  unknown _ := WithoutDns.dnsOfPayload ⟨rfl,rfl⟩
  truncated := WithoutDns.dnsOfPayload ⟨rfl,rfl⟩
  link eth offset := by
    rw [linkPacket, nsPacketSetPayload_eq]
    exact ⟨rfl,rfl⟩
  setPayload n k h := h.setPayload n k
  arp _ h _ := ⟨h.rawData,h.hasDns⟩
  ipv4 _ h _ := ⟨h.rawData,h.hasDns⟩
  ipv6 _ h _ := ⟨h.rawData,h.hasDns⟩
  stop h := h.dnsOfPayload
  reject _ h := h.dnsOfPayload
  transport offset proto h _ := h.transport offset proto

/-! ## The first question -/

/-- The first decoded question stands behind the header. -/
theorem firstQuestion_parsed {data : Bytes} {info : DnsInfo} {q : DnsQuestion} {rest : List DnsQuestion}
    (h : nsParseDns data = .ok info) (hq : info.questions = q :: rest) : ∃ stop, nsDnsParseQuestion data 12 = .ok (q,stop) := by
  obtain ⟨_,questions,offset,answers,hquestions,_,rfl⟩ := nsParseDns_ok_iff.mp h
  obtain rfl : questions = q :: rest := hq
  cases hn : (u16 data 4).toNat with
  | zero =>
    rw [hn] at hquestions
    cases hquestions
  | succ n =>
    rw [hn] at hquestions
    obtain ⟨q',stop,more,hfirst,-,heq⟩ := parseQuestions_ok hquestions
    rw [if_pos (by decide)] at heq
    obtain ⟨rfl,-⟩ := List.cons.inj (Prod.mk.inj heq).1
    exact ⟨stop,hfirst⟩

/-- A frame whose packet has a first question with these labels on the wire. -/
structure AsksFor (c : Capture) (labels : List Bytes) : Prop where
  hasDns : c.packet.hasDns = true
  decoded : 0 < c.packet.dns.decodedQuestionCount
  name : ∃ pointers stop, NameChain c.packet.payloadBytes 12 labels pointers stop

theorem AsksFor.firstQuestion {c : Capture} {labels : List Bytes} (h : AsksFor c labels) :
    ∃ q rest, c.packet.dns.questions = q :: rest ∧ q.name = dottedText labels := by
  obtain ⟨q,rest,hq⟩ := List.exists_cons_of_ne_nil (List.ne_nil_of_length_pos h.decoded)
  obtain ⟨stop,hparsed⟩ := firstQuestion_parsed ((walkRule_dnsOfPayload c).packet h.hasDns) hq
  obtain ⟨labels',pointers',stop',hchain',_,_,hname⟩ :=
    NameUses.decodeFor_eq_some_iff.mp (@NameUses.nsDnsParseQuestion_decodeFor _ _ .question rfl _ _ hparsed)
  obtain ⟨pointers,stop,hchain⟩ := h.name
  refine ⟨q,rest,hq,?_⟩
  rw [hname, hchain.labels_unique hchain']

/-! ## The name in the line -/

/-- The bytes with the code points of a string, when there are such bytes. -/
def codePointBytes (us : List UInt16) : Option Bytes := us.mapM fun u => if u < 256 then some u.toUInt8 else none

/-- The name that a reader of the line finds as the question. -/
def shownName (line : Bytes) : Option Bytes := do
  let v ← Json.parse line
  let dns ← v.member (ascii "dns")
  let question ← dns.member (ascii "question")
  match question with
  | .string us => codePointBytes us
  | _ => none

theorem codePointBytes_units (s : Bytes) : codePointBytes (Json.units s) = some s := by
  induction s with
  | nil => rfl
  | cons c s ih =>
    have hsmall : c.toUInt16 < 256 := by
      rw [UInt16.lt_iff_toNat_lt, UInt8.toNat_toUInt16]
      exact c.toNat_lt
    rw [codePointBytes, Json.units] at ih ⊢
    rw [List.map_cons, List.mapM_cons, ih, if_pos hsmall]
    simp

theorem dnsObject_question (q : DnsQuestion) :
    (dnsObject q).value.member (ascii "question") = some (.string (Json.units (cString q.name))) :=
  Json.Written.object_member _ List.mem_cons_self

/-- The line shows the name of the first question as a C string. -/
theorem shownName_printJsonLine (clock : Clock) {pkt : Packet} {q : DnsQuestion} {rest : List DnsQuestion}
    (hd : pkt.hasDns = true) (hq : pkt.dns.questions = q :: rest) :
    shownName (printJsonLine clock pkt) = some (cString q.name) := by
  have hparse : Json.parse (printJsonLine clock pkt) = some (packetObject clock pkt).value := by
    rw [printJsonLine_text]
    exact (packetObject clock pkt).spells.parse_space (List.forall_mem_singleton.mpr rfl) (Json.delimited_cons (by decide) [])
  have hdns : (packetObject clock pkt).value.member (ascii "dns") = some (dnsObject q).value := by
    rw [packetObject_dns, dnsMember, hd, hq]
    rfl
  rw [shownName, hparse]
  simp [hdns, dnsObject_question, codePointBytes_units]

/-- No label has a zero byte. -/
def NulFree (labels : List Bytes) : Prop := ∀ l ∈ labels, 0 ∉ l

theorem nul_mem_dottedText (labels : List Bytes) : 0 ∈ dottedText labels ↔ ∃ l ∈ labels, 0 ∈ l := by
  have hdot : (0 : UInt8) ≠ dot := by decide
  cases labels with
  | nil => simp [dottedText, hdot]
  | cons l labels =>
    rw [dottedText, if_neg (List.cons_ne_nil l labels), intercalate_separator]
    simp [hdot]

theorem cString_dottedText_iff (labels : List Bytes) : cString (dottedText labels) = dottedText labels ↔ NulFree labels := by
  rw [cString_eq_self_iff, nul_mem_dottedText, NulFree]
  simp only [not_exists, not_and]

/-- The line of a frame shows the dotted text of its question name exactly when no label
has a zero byte; the names of such frames are told apart by their lines. -/
theorem shownName_iff (clock : Clock) (c : Capture) (labels : List Bytes) (h : AsksFor c labels) :
    (shownName (printJsonLine clock c.packet) = some (dottedText labels) ↔ NulFree labels) ∧
      ∀ c' labels', AsksFor c' labels' → NulFree labels → NulFree labels' →
        shownName (printJsonLine clock c.packet) = shownName (printJsonLine clock c'.packet) →
        dottedText labels = dottedText labels' := by
  obtain ⟨q,rest,hq,hname⟩ := h.firstQuestion
  have hshown := shownName_printJsonLine clock h.hasDns hq
  rw [hname] at hshown
  refine ⟨?_,?_⟩
  · rw [hshown, Option.some_inj, cString_dottedText_iff]
  · intro c' labels' h' hfree hfree' hsame
    obtain ⟨q',rest',hq',hname'⟩ := h'.firstQuestion
    have hshown' := shownName_printJsonLine clock h'.hasDns hq'
    rw [hname'] at hshown'
    rw [hshown, hshown', Option.some_inj] at hsame
    rw [← (cString_dottedText_iff labels).mpr hfree, ← (cString_dottedText_iff labels').mpr hfree', hsame]

/-! ## Names with a zero byte -/

/-- The message of a query for a label of five bytes. -/
def queryMessage (label : Vector UInt8 5) : Bytes :=
  [0x12,0x34,1,0,0,1,0,0,0,0,0,0,5,label[0],label[1],label[2],label[3],label[4],0,0,1,0,1]

theorem nameChain_queryMessage (a b c d e : UInt8) : NameChain (queryMessage #v[a,b,c,d,e]) 12 [[a,b,c,d,e]] 0 19 := by
  have hroot : NameChain (queryMessage #v[a,b,c,d,e]) 18 [] 0 19 :=
    .root (show 18 < 23 by decide) rfl
  exact @NameChain.label _ 12 [] 0 19 (show 1 ≤ 5 by decide) (show 5 ≤ 63 by decide) (show 18 ≤ 23 by decide) hroot

theorem asksFor_queryFor {a b c d e : UInt8} (hd : (queryFor #v[a,b,c,d,e]).packet.hasDns = true)
    (hq : 0 < (queryFor #v[a,b,c,d,e]).packet.dns.decodedQuestionCount)
    (hp : (queryFor #v[a,b,c,d,e]).packet.payloadBytes = queryMessage #v[a,b,c,d,e]) :
    AsksFor (queryFor #v[a,b,c,d,e]) [[a,b,c,d,e]] := by
  refine ⟨hd,hq,0,19,?_⟩
  rw [hp]
  exact nameChain_queryMessage a b c d e

/-- A label of letters and bytes outside ASCII. -/
theorem asksFor_plain : AsksFor (queryFor #v[99,97,102,195,169]) [[99,97,102,195,169]] :=
  asksFor_queryFor (by decide +kernel) (by decide +kernel) (by decide +kernel)

theorem shownName_iff_plain :
    AsksFor (queryFor #v[99,97,102,195,169]) [[99,97,102,195,169]] ∧ NulFree [[99,97,102,195,169]] ∧
      shownName (printJsonLine noon (queryFor #v[99,97,102,195,169]).packet) = some (dottedText [[99,97,102,195,169]]) := by
  have hfree : NulFree [[99,97,102,195,169]] := by
    unfold NulFree
    decide
  exact ⟨asksFor_plain,hfree,((shownName_iff noon _ _ asksFor_plain).1.mpr hfree)⟩

/-- Two names that differ behind a zero byte are both shown as `a`. -/
theorem names_behind_nul_lost :
    AsksFor (queryFor #v[97,0,98,98,98]) [[97,0,98,98,98]] ∧ AsksFor (queryFor #v[97,0,99,99,99]) [[97,0,99,99,99]] ∧
      shownName (printJsonLine noon (queryFor #v[97,0,98,98,98]).packet) = some (ascii "a") ∧
      shownName (printJsonLine noon (queryFor #v[97,0,99,99,99]).packet) = some (ascii "a") ∧
      dottedText [[97,0,98,98,98]] ≠ dottedText [[97,0,99,99,99]] ∧
      shownName (printJsonLine noon (queryFor #v[97,0,98,98,98]).packet) ≠ some (dottedText [[97,0,98,98,98]]) := by
  have hb : AsksFor (queryFor #v[97,0,98,98,98]) [[97,0,98,98,98]] :=
    asksFor_queryFor (by decide +kernel) (by decide +kernel) (by decide +kernel)
  have hc : AsksFor (queryFor #v[97,0,99,99,99]) [[97,0,99,99,99]] :=
    asksFor_queryFor (by decide +kernel) (by decide +kernel) (by decide +kernel)
  have hshown : shownName (printJsonLine noon (queryFor #v[97,0,98,98,98]).packet) = some (ascii "a") := by decide +kernel
  have hshown' : shownName (printJsonLine noon (queryFor #v[97,0,99,99,99]).packet) = some (ascii "a") := by decide +kernel
  refine ⟨hb,hc,hshown,hshown',by decide,?_⟩
  rw [hshown]
  decide

end Netscope.WireNames
