import Netscope.Library.ByteClasses
import Netscope.Model.Output
import Netscope.Text.AddressText

/-! # Which bytes reach the terminal

Without colour, everything the text output prints of a packet is printable ASCII
and newlines, except the names and the rdata of its DNS message, which are printed
as they were decoded.
-/
namespace Netscope.TerminalOutput
open ByteString Numerals ByteClasses AddressText

/-- A newline or a printable byte. -/
def Clean (b : UInt8) : Prop := b = newline ∨ Printable b

instance : DecidablePred Clean := fun b => inferInstanceAs (Decidable (b = newline ∨ Printable b))

/-! ## Pieces -/

theorem within_of_printable {s : Bytes} (h : ∀ b ∈ s, Printable b) : Within Clean s := fun b hb => .inr (h b hb)

theorem clean_decimal (n : ℕ) : Within Clean (decimal n) := within_of_printable (numeral_printable (by decide) (by decide) n)

theorem clean_hex (n : ℕ) : Within Clean (hex n) := within_of_printable (numeral_printable (by decide) (by decide) n)

theorem clean_snprintf {s : Bytes} (h : Within Clean s) (n : ℕ) : Within Clean (snprintf n s) := h.take (n - 1)

theorem clean_hex2 (b : UInt8) : Within Clean (hex2 b) := (clean_hex b.toNat).padLeft (by decide) 2

theorem clean_nsFormatMac (mac : MacAddress) (n : ℕ) : Within Clean (nsFormatMac mac n) := by
  have hcolon : Within Clean [colon] := by decide
  apply clean_snprintf
  simp only [within_append, clean_hex2, hcolon, and_self]

theorem clean_nsFormatIpv4 (addr : Ipv4Address) (n : ℕ) : Within Clean (nsFormatIpv4 addr n) :=
  clean_snprintf (within_of_printable (printable_ipv4Text addr)) n

theorem clean_nsFormatIpv6 (addr : Ipv6Address) (n : ℕ) : Within Clean (nsFormatIpv6 addr n) :=
  clean_snprintf (within_of_printable (printable_ipv6Text addr)) n

theorem clean_nsIcmpTypeName (type : UInt8) : Within Clean (nsIcmpTypeName type) := by
  unfold nsIcmpTypeName
  split_ifs <;> decide

theorem clean_nsIcmpv6TypeName (type : UInt8) : Within Clean (nsIcmpv6TypeName type) := by
  unfold nsIcmpv6TypeName
  split_ifs <;> decide

theorem clean_nsDnsTypeName (type : UInt16) (n : ℕ) : Within Clean (nsDnsTypeName type n) := by
  have hnumber : Within Clean (ascii "TYPE" ++ decimal type.toNat) :=
    within_append.mpr ⟨by decide,clean_decimal _⟩
  unfold nsDnsTypeName
  split_ifs
  case neg => exact clean_snprintf hnumber n
  all_goals decide

theorem clean_tcpFlagsLoop (flags : UInt8) (n : ℕ) {names : List (UInt8 × Bytes)} (hnames : ∀ f ∈ names, Within Clean f.2)
    {text : Bytes} (htext : Within Clean text) (first : Bool) :
    Within Clean (tcpFlagsLoop flags n names text first).1 := by
  induction names generalizing text first with
  | nil => exact htext
  | cons f names ih =>
    obtain ⟨hf,hrest⟩ := List.forall_mem_cons.mp hnames
    have hpiece : Within Clean ((if first then [] else [comma]) ++ f.2) := by
      refine within_append.mpr ⟨?_,hf⟩
      cases first <;> decide
    unfold tcpFlagsLoop
    split
    · exact ih hrest htext first
    · dsimp only
      generalize (if first then [] else [comma]) ++ f.2 = piece at hpiece ⊢
      split
      · exact within_append.mpr ⟨htext,clean_snprintf hpiece _⟩
      · exact ih hrest (within_append.mpr ⟨htext,hpiece⟩) false

theorem clean_nsTcpFlagsToString (flags : UInt8) (n : ℕ) : Within Clean (nsTcpFlagsToString flags n) := by
  unfold nsTcpFlagsToString
  dsimp only
  split
  · exact clean_snprintf (by decide) n
  · exact clean_tcpFlagsLoop flags n (by decide) within_nil true

theorem clean_zeroPadded (width : ℕ) (x : ℤ) : Within Clean (zeroPadded width x) := by
  unfold zeroPadded
  split
  · exact within_append.mpr ⟨by decide,(clean_decimal _).padLeft (by decide) _⟩
  · exact (clean_decimal _).padLeft (by decide) _

/-! ## The hex dump -/

theorem clean_appendLine {line text : Bytes} (hline : Within Clean line) (htext : Within Clean text) (n : ℕ) :
    Within Clean (appendLine n line text) := by
  unfold appendLine
  split
  · exact hline
  · exact within_append.mpr ⟨hline,clean_snprintf htext _⟩

theorem clean_pushByte {line : Bytes} (hline : Within Clean line) {c : UInt8} (hc : Clean c) :
    Within Clean (pushByte line c) := by
  unfold pushByte
  split
  · exact within_append.mpr ⟨hline,within_cons.mpr ⟨hc,within_nil⟩⟩
  · exact hline

theorem clean_dumpColumn (bytes : Bytes) {line : Bytes} (hline : Within Clean line) (i : ℕ) :
    Within Clean (dumpColumn bytes line i) := by
  have hcolumn : Within Clean (if i < bytes.length then hex2 (u8 bytes i) ++ [32] else ascii "   ") := by
    split
    · exact within_append.mpr ⟨clean_hex2 _,by decide⟩
    · decide
  unfold dumpColumn
  dsimp only
  split
  · exact clean_appendLine (clean_appendLine hline hcolumn _) (by decide) _
  · exact clean_appendLine hline hcolumn _

theorem clean_gutterByte (c : UInt8) : Clean (gutterByte c) := by
  unfold gutterByte
  split
  · rename_i h
    refine .inr ⟨h.1,?_⟩
    have := UInt8.lt_iff_toNat_lt.mp h.2
    exact UInt8.le_iff_toNat_le.mpr (Nat.le_of_lt_succ this)
  · decide

theorem clean_dumpLine (data : Bytes) (offset : ℕ) : Within Clean (dumpLine data offset) := by
  have hstart : Within Clean (appendLine dumpLineSize [] (padLeft 48 4 (hex offset) ++ [32,32])) :=
    clean_appendLine within_nil (within_append.mpr ⟨(clean_hex offset).padLeft (by decide) 4,by decide⟩) _
  have hcolumns : Within Clean ((List.range 16).foldl (dumpColumn (chunk data offset 16))
      (appendLine dumpLineSize [] (padLeft 48 4 (hex offset) ++ [32,32]))) :=
    hstart.foldl (fun line hline i _ => clean_dumpColumn _ hline i)
  refine clean_pushByte ?_ (by decide)
  apply (clean_appendLine hcolumns (by decide) _).foldl
  intro line hline c hc
  obtain ⟨b,_,rfl⟩ := List.mem_map.mp hc
  exact clean_pushByte hline (clean_gutterByte b)

theorem clean_dumpLines (data : Bytes) (offset : ℕ) : ∀ line ∈ dumpLines data offset, Within Clean line := by
  fun_induction dumpLines data offset with
  | case1 offset _ ih => exact List.forall_mem_cons.mpr ⟨clean_dumpLine data offset,ih⟩
  | case2 offset _ => exact fun _ h => nomatch h

theorem clean_nsHexDumpFile (data : Bytes) : Within Clean (nsHexDumpFile data) := within_flatten (clean_dumpLines data 0)

/-! ## Lines without DNS -/

section Lines
variable (clock : Clock) (pkt : Packet)

theorem clean_formatTimestamp (ts : Timestamp) (n : ℕ) : Within Clean (formatTimestamp clock ts n) := by
  refine within_append.mpr ⟨within_of_printable (clock.localTime_printable _),clean_snprintf ?_ _⟩
  exact within_append.mpr ⟨by decide,clean_zeroPadded _ _⟩

theorem clean_formatNetworkAddrs (m n : ℕ) :
    Within Clean (formatNetworkAddrs pkt m n).1 ∧ Within Clean (formatNetworkAddrs pkt m n).2 := by
  unfold formatNetworkAddrs
  split
  · exact ⟨clean_nsFormatIpv4 _ _,clean_nsFormatIpv4 _ _⟩
  · exact ⟨clean_nsFormatIpv6 _ _,clean_nsFormatIpv6 _ _⟩
  · exact ⟨clean_snprintf (by decide) _,clean_snprintf (by decide) _⟩

theorem clean_printArpLine : Within Clean (printArpLine pkt [] []) := by
  have hsender := clean_nsFormatIpv4 pkt.net.getArp.senderIp 16
  have htarget := clean_nsFormatIpv4 pkt.net.getArp.targetIp 16
  have hmac := clean_nsFormatMac pkt.net.getArp.senderMac 18
  have hop := clean_decimal pkt.net.getArp.operation.toNat
  unfold printArpLine
  split_ifs
  all_goals
    simp only [within_append, hsender, htarget, hmac, hop, and_true]
    decide

theorem clean_nsProtoName (proto : Proto) : Within Clean (ascii (nsProtoName proto)) := by
  cases proto <;> decide

/-- The four texts of a line are clean when the addresses are. -/
theorem clean_lineParts {src dst : Bytes} (hsrc : Within Clean src) (hdst : Within Clean dst) :
    Within Clean (lineParts pkt src dst).protoName ∧ Within Clean (lineParts pkt src dst).srcEp ∧
      Within Clean (lineParts pkt src dst).dstEp ∧ Within Clean (lineParts pkt src dst).extra := by
  have hendpoint : ∀ {addr : Bytes} (_ : Within Clean addr) (port : UInt16),
      Within Clean (snprintf 64 (addr ++ [colon] ++ decimal port.toNat)) := fun haddr port =>
    clean_snprintf (within_append.mpr ⟨within_append.mpr ⟨haddr,by decide⟩,clean_decimal _⟩) _
  unfold lineParts
  split <;> dsimp only
  · refine ⟨by decide,hendpoint hsrc _,hendpoint hdst _,clean_snprintf ?_ _⟩
    exact within_append.mpr ⟨within_append.mpr ⟨by decide,clean_nsTcpFlagsToString _ _⟩,by decide⟩
  · refine ⟨by decide,hendpoint hsrc _,hendpoint hdst _,?_⟩
    split
    · exact clean_snprintf (by decide) _
    · exact within_nil
  · refine ⟨by decide,clean_snprintf hsrc _,clean_snprintf hdst _,?_⟩
    split
    · apply clean_snprintf
      simp only [within_append, clean_nsIcmpTypeName, clean_decimal, and_true]
      decide
    · exact clean_snprintf (clean_nsIcmpTypeName _) _
  · exact ⟨by decide,clean_snprintf hsrc _,clean_snprintf hdst _,clean_snprintf (clean_nsIcmpv6TypeName _) _⟩
  · exact ⟨clean_nsProtoName _,clean_snprintf hsrc _,clean_snprintf hdst _,within_nil⟩

theorem clean_malformedReason (reason : Option MalformedReason) :
    Within Clean (ascii ((reason.map MalformedReason.text).getD "unknown reason")) := by
  cases reason with
  | none => decide
  | some reason => cases reason <;> decide

theorem clean_malformedLine {ts : Bytes} (hts : Within Clean ts) : Within Clean (malformedLine pkt ts [] []) := by
  unfold malformedLine
  simp only [within_append, hts, clean_decimal, clean_malformedReason, and_true]
  decide

theorem clean_packetLine {ts : Bytes} (hts : Within Clean ts) : Within Clean (packetLine pkt ts [] []) := by
  obtain ⟨hsrc,hdst⟩ := clean_formatNetworkAddrs pkt 46 46
  obtain ⟨hname,hsrcEp,hdstEp,hextra⟩ := clean_lineParts pkt hsrc hdst
  have hspace : Clean 32 := by decide
  have hpadded := hname.padRight hspace 6
  unfold packetLine
  simp only [within_append, hts, hpadded, hsrcEp, hdstEp, hextra, clean_decimal, and_true]
  decide

/-! ## The verbose block -/

theorem clean_verboseLink : Within Clean (verboseLink pkt) := by
  have hvlan : Within Clean (if pkt.eth.hasVlan then ascii "  VLAN:        " ++ decimal pkt.eth.vlanId.toNat ++ [newline]
      else []) := by
    split
    · simp only [within_append, clean_decimal, and_true]
      decide
    · exact within_nil
  have htype : Within Clean (padLeft 48 4 (hex pkt.eth.ethertype.toNat)) := (clean_hex _).padLeft (by decide) 4
  unfold verboseLink
  split
  · simp only [within_append, hvlan, field, clean_nsFormatMac, htype, and_true]
    decide
  · exact within_nil

theorem clean_verboseNetwork : Within Clean (verboseNetwork pkt) := by
  unfold verboseNetwork
  split
  · simp only [within_append, field, clean_nsFormatIpv4, clean_decimal, and_true]
    decide
  · simp only [within_append, field, clean_nsFormatIpv6, clean_decimal, and_true]
    decide
  · exact within_nil

theorem clean_verboseTransport : Within Clean (verboseTransport pkt) := by
  unfold verboseTransport
  split
  · simp only [within_append, field, clean_nsTcpFlagsToString, clean_decimal, and_true]
    decide
  · simp only [within_append, field, clean_decimal, and_true]
    decide
  · exact within_nil

theorem clean_printVerboseBlock : Within Clean (printVerboseBlock clock pkt) := by
  unfold printVerboseBlock
  simp only [within_append, field, clean_decimal, clean_formatTimestamp, clean_zeroPadded, clean_verboseLink,
    clean_verboseNetwork, clean_verboseTransport, and_true]
  decide

end Lines

/-! ## The DNS line -/

/-- The decoded texts on the line of a message. -/
def dnsLineTexts (dns : DnsInfo) : List Bytes :=
  if dns.isResponse then
    match dns.answers with
    | a :: _ => [a.name,a.rdataText]
    | [] => []
  else
    match dns.questions with
    | q :: _ => [q.name]
    | [] => []

/-- The line is as clean as these texts are. -/
theorem clean_printDnsLine_iff (dns : DnsInfo) :
    Within Clean (printDnsLine dns) ↔ ∀ t ∈ dnsLineTexts dns, Within Clean (cString t) := by
  have hresponse : Within Clean (ascii "    Response: ") := by decide
  have hquery : Within Clean (ascii "    Query: ") := by decide
  have hspace : Within Clean [32] := by decide
  have hend : Within Clean [newline] := by decide
  unfold printDnsLine dnsLineTexts
  split
  · cases dns.answers with
    | nil => simp
    | cons a answers =>
      have htype := clean_nsDnsTypeName a.type 16
      simp only [within_append, hresponse, hspace, hend, htype, and_true, true_and, List.forall_mem_cons,
        List.not_mem_nil, IsEmpty.forall_iff, implies_true]
  · cases dns.questions with
    | nil => simp
    | cons q questions =>
      have htype := clean_nsDnsTypeName q.type 16
      simp only [within_append, hquery, hspace, hend, htype, and_true, true_and, List.forall_mem_cons,
        List.not_mem_nil, IsEmpty.forall_iff, implies_true]

/-! ## Packets -/

/-- The decoded texts that the text output prints of a packet. -/
def shownDnsTexts (pkt : Packet) : List Bytes :=
  if pkt.malformed || pkt.networkProto = .arp || !pkt.hasDns then [] else dnsLineTexts pkt.dns

section Packets
variable (clock : Clock) (pkt : Packet) {opts : OutputOptions}

theorem clean_printTextLine_iff (hcolor : opts.color = false) :
    Within Clean (printTextLine clock pkt opts) ↔ ∀ t ∈ shownDnsTexts pkt, Within Clean (cString t) := by
  have hts := clean_formatTimestamp clock pkt.timestamp 16
  unfold printTextLine shownDnsTexts
  simp only [hcolor, Bool.false_eq_true, ↓reduceIte]
  cases hm : pkt.malformed with
  | true => simp [clean_malformedLine pkt hts]
  | false =>
    by_cases harp : pkt.networkProto = .arp
    · have hstart : Within Clean (ascii "[") ∧ Within Clean (ascii "] ") := by decide
      simp [harp, hstart, hts, clean_printArpLine]
    · cases hdns : pkt.hasDns with
      | false => simp [harp, clean_packetLine pkt hts]
      | true =>
        simp only [harp, Bool.false_eq_true, ↓reduceIte, within_append, clean_packetLine pkt hts, true_and, decide_false,
          Bool.or_self, Bool.not_true]
        exact clean_printDnsLine_iff pkt.dns

end Packets

/-- Without colour, the text output of a packet is newlines and printable ASCII exactly when it is
suppressed or the DNS texts it prints are. -/
theorem nsOutputPacket_clean_iff (clock : Clock) (c : Capture) (opts : OutputOptions) (hformat : opts.format = .text)
    (hcolor : opts.color = false) :
    (∀ b ∈ nsOutputPacket clock c.packet opts, b = newline ∨ Printable b) ↔
      opts.quiet = true ∨ ∀ t ∈ shownDnsTexts c.packet, ∀ b ∈ cString t, b = newline ∨ Printable b := by
  change Within Clean _ ↔ _ ∨ ∀ t ∈ shownDnsTexts c.packet, Within Clean (cString t)
  rw [← clean_printTextLine_iff clock c.packet hcolor]
  unfold nsOutputPacket
  simp only [hformat, reduceCtorEq, ↓reduceIte]
  cases opts.quiet with
  | true => simp
  | false =>
    have hverbose : Within Clean (if opts.verbose then printVerboseBlock clock c.packet else []) := by
      split
      · exact clean_printVerboseBlock clock c.packet
      · exact within_nil
    have hhex : Within Clean (if opts.hex then nsHexDumpFile (c.packet.rawData.take c.packet.capturedLength) else []) := by
      split
      · exact clean_nsHexDumpFile _
      · exact within_nil
    simp only [Bool.false_eq_true, ↓reduceIte, within_append, hverbose, hhex, and_true, false_or]

/-- A clock stopped at noon. -/
def noon : Clock where
  localTime _ := ascii "12:00:00"
  universalTime _ := ascii "2024-01-01T12:00:00"
  localTime_printable _ := by decide

def plainText : OutputOptions := ⟨false,false,false,false,.text⟩

/-- A query over UDP for a name of one label; its five bytes follow the header of the message. -/
def queryFor (label : Vector UInt8 5) : Capture where
  data := [1,2,3,4,5,6,7,8,9,10,11,12,0x08,0x00,
    0x45,0,0,51,0,1,0x40,0,64,17,0,0,10,0,0,1,10,0,0,2,
    0x9c,0x40,0,53,0,31,0,0,
    0x12,0x34,1,0,0,1,0,0,0,0,0,0,5] ++ label.toList ++ [0,0,1,0,1]
  originalLength := 65
  timestamp := ⟨0,0⟩
  number := 1
  linkType := .ethernet

theorem nsOutputPacket_clean_iff_query :
    plainText.format = .text ∧ plainText.color = false ∧
      ((∀ b ∈ nsOutputPacket noon (queryFor #v[104,101,108,108,111]).packet plainText, b = newline ∨ Printable b) ↔
        plainText.quiet = true ∨ ∀ t ∈ shownDnsTexts (queryFor #v[104,101,108,108,111]).packet,
          ∀ b ∈ cString t, b = newline ∨ Printable b) :=
  ⟨rfl,rfl,nsOutputPacket_clean_iff noon (queryFor #v[104,101,108,108,111]) plainText rfl rfl⟩

/-- A label that turns what follows it red. -/
theorem query_escapes :
    (queryFor #v[27,91,51,49,109]).packet.hasDns = true ∧
      0x1b ∈ nsOutputPacket noon (queryFor #v[27,91,51,49,109]).packet plainText ∧
      ¬∀ b ∈ nsOutputPacket noon (queryFor #v[27,91,51,49,109]).packet plainText, b = newline ∨ Printable b := by
  have hesc : 0x1b ∈ nsOutputPacket noon (queryFor #v[27,91,51,49,109]).packet plainText := by decide +kernel
  refine ⟨by decide +kernel,hesc,fun h => ?_⟩
  exact absurd (h 0x1b hesc) (by decide)

end Netscope.TerminalOutput
