import Mathlib.Data.Nat.Bitwise
import Netscope.Dns.MessageFormat
import Netscope.Dns.MessageSpecs
import Netscope.Text.AddressText

/-! # Decoding a serialised message

The name decoder resynchronises behind every written name, so the two loops read
the entries of their sections one after the other, and what is stored are the first
entries of each.
-/
namespace Netscope.DnsRoundTrip
open ByteString DnsName DnsWire AddressText

/-! ## Names -/

theorem lengthByte_append (before : Bytes) (b : UInt8) (rest : Bytes) :
    lengthByte (before ++ (b :: rest)) before.length = b.toNat := by
  rw [lengthByte, u8_skip _ le_rfl, Nat.sub_self, u8_cons_zero]

/-- The two bytes of a pointer give back its target. -/
theorem jumpTarget_append (before : Bytes) {target : ℕ} (ht : target < 2 ^ 14) (rest : Bytes) :
    192 ≤ lengthByte (before ++ (be16 (UInt16.ofNat (0xC000 + target)) ++ rest)) before.length ∧
      jumpTarget (before ++ (be16 (UInt16.ofNat (0xC000 + target)) ++ rest)) before.length = target := by
  generalize hw : UInt16.ofNat (0xC000 + target) = word
  have hword : word.toNat = 0xC000 + target := by
    rw [← hw]
    exact UInt16.toNat_ofNat_of_lt' (by simp only [UInt16.size]; omega)
  have hhigh : lengthByte (before ++ (be16 word ++ rest)) before.length = word.toNat / 256 := by
    have hlt := word.toNat_lt
    rw [be16, List.cons_append, lengthByte_append, UInt16.toNat_toUInt8, UInt16.toNat_shiftRight]
    simp only [UInt16.reduceToNat, Nat.reduceMod, Nat.shiftRight_eq_div_pow]
    omega
  have hlow : lengthByte (before ++ (be16 word ++ rest)) (before.length + 1) = word.toNat % 256 := by
    rw [lengthByte, u8_append_right]
    exact UInt16.toNat_toUInt8 word
  rw [jumpTarget, hhigh, hlow, hword]
  omega

theorem chunk_append (before label rest : Bytes) : chunk (before ++ (label ++ rest)) before.length label.length = label := by
  rw [chunk, List.drop_left, List.take_left]

/-- A written name is a chain of the message it is part of. -/
theorem encodesName_chain {before bytes : Bytes} {labels : List Bytes} {pointers : ℕ}
    (h : EncodesName before labels bytes pointers) (rest : Bytes) :
    NameChain (before ++ (bytes ++ rest)) before.length labels pointers (before.length + bytes.length) := by
  induction h generalizing rest with
  | root => exact .root (by simp) (lengthByte_append _ 0 rest)
  | @label before label bytes labels pointers h1 h63 _ ih =>
    have hbyte : lengthByte (before ++ (([UInt8.ofNat label.length] ++ (label ++ bytes)) ++ rest)) before.length =
        label.length := by
      refine (lengthByte_append before _ (label ++ bytes ++ rest)).trans ?_
      exact UInt8.toNat_ofNat_of_lt' (by simp only [UInt8.size]; omega)
    have hchunk := chunk_append (before ++ [UInt8.ofNat label.length]) label (bytes ++ rest)
    have hrest := ih rest
    simp only [List.length_append, List.length_singleton, List.append_assoc, ← Nat.add_assoc] at hbyte hchunk hrest ⊢
    have hchain := NameChain.label (by rw [hbyte]; exact h1) (by rw [hbyte]; exact h63)
      (by simp only [hbyte, List.length_append, List.length_singleton]; omega) (by rw [hbyte]; exact hrest)
    rwa [hbyte, hchunk] at hchain
  | @pointer start occurrence between labels pointers ht _ ih =>
    obtain ⟨hhigh,htarget⟩ := jumpTarget_append (start ++ (occurrence ++ between)) ht rest
    have hrest := ih (between ++ (be16 (UInt16.ofNat (0xC000 + start.length)) ++ rest))
    have hlen : (start ++ (occurrence ++ between)).length + 2 ≤
        (start ++ (occurrence ++ between) ++ (be16 (UInt16.ofNat (0xC000 + start.length)) ++ rest)).length := by
      simp only [List.length_append, be16_length]
      omega
    rw [be16_length]
    apply NameChain.pointer hlen hhigh
    rw [htarget]
    simpa only [List.append_assoc] using hrest

/-- The decoder reads back a written name and stops behind it. -/
theorem nsDnsDecodeName_encoded {before bytes : Bytes} {labels : List Bytes} {pointers : ℕ}
    (h : EncodesName before labels bytes pointers) (hpointers : pointers ≤ 32) (htext : (dottedText labels).length ≤ 255)
    (rest : Bytes) :
    nsDnsDecodeName (before ++ (bytes ++ rest)) before.length (dnsMaxName + 1) =
      .ok (dottedText labels,before.length + bytes.length) :=
  (nsDnsDecodeName_ok_iff (by decide) _ _).mpr
    ⟨labels,pointers,encodesName_chain h rest,hpointers,Nat.lt_succ_of_le htext,rfl⟩

/-! ## Questions -/

/-- The decoded form of a question. -/
def decodedQuestion (q : Question) : DnsQuestion := ⟨dottedText q.labels,q.type,q.qclass⟩

theorem nsDnsParseQuestion_encoded {before name : Bytes} {q : Question} {pointers : ℕ}
    (h : EncodesName before q.labels name pointers) (hpointers : pointers ≤ 32)
    (htext : (dottedText q.labels).length ≤ 255) (rest : Bytes) :
    nsDnsParseQuestion (before ++ (name ++ (q.body ++ rest))) before.length =
      .ok (decodedQuestion q,(before ++ (name ++ q.body)).length) := by
  rw [nsDnsParseQuestion_of_name (nsDnsDecodeName_encoded h hpointers htext (q.body ++ rest)), ← List.append_assoc,
    ← List.length_append]
  have hlen : (before ++ name).length + 4 ≤ (before ++ name ++ (q.body ++ rest)).length := by
    simp only [Question.body, List.length_append, be16_length]
    omega
  rw [if_pos hlen]
  simp (disch := simp) [Question.body, u16_skip, decodedQuestion, Nat.add_assoc]

theorem parseQuestions_encoded {before bytes : Bytes} {qs : List Question}
    (h : EncodesSection Question.labels Question.body before qs bytes) (rest : Bytes) (i : ℕ) :
    parseQuestions (before ++ (bytes ++ rest)) qs.length i before.length =
      .ok ((qs.take (dnsMaxQuestions - i)).map decodedQuestion,(before ++ bytes).length) := by
  induction h generalizing i with
  | nil => simp [parseQuestions]
  | @cons before name bytes q qs pointers hname hpointers htext _ ih =>
    have hq := nsDnsParseQuestion_encoded hname hpointers htext (bytes ++ rest)
    have hrest := ih (i + 1)
    simp only [List.append_assoc] at hq hrest ⊢
    rw [List.length_cons, parseQuestions_step hq, hrest]
    by_cases hi : i < dnsMaxQuestions
    · have htake : dnsMaxQuestions - i = (dnsMaxQuestions - (i + 1)) + 1 := by omega
      simp only [Except.map, hi, ↓reduceIte, htake, List.take_succ_cons, List.map_cons]
    · have hnone : dnsMaxQuestions - i = 0 ∧ dnsMaxQuestions - (i + 1) = 0 := by omega
      simp only [Except.map, hi, ↓reduceIte, hnone, List.take_zero, List.map_nil]

/-! ## Answers -/

/-- The decoded form of an answer; the rdata is given for the two address types. -/
structure AnswerDecoded (a : Answer) (r : DnsRecord) : Prop where
  name : r.name = dottedText a.labels
  type : r.type = a.type
  rclass : r.rclass = a.rclass
  ttl : r.ttl = a.ttl
  rdlength : r.rdlength.toNat = a.rdata.length
  rdataA : a.type = dnsTypeA → a.rdata.length = 4 → r.rdataText = ipv4Text (slice a.rdata 0 4)
  rdataAaaa : a.type = dnsTypeAaaa → a.rdata.length = 16 → r.rdataText = ipv6Text (slice a.rdata 0 16)

section Rdata
variable {before rdata rest : Bytes}

theorem slice_rdata {n : ℕ} (h : rdata.length = n) : slice (before ++ (rdata ++ rest)) before.length n = slice rdata 0 n := by
  rw [slice_skip _ le_rfl, Nat.sub_self, slice_stable (List.prefix_append rdata rest) (by omega)]

theorem nsDnsFormatRdata_address4 (h : rdata.length = 4) :
    nsDnsFormatRdata (before ++ (rdata ++ rest)) before.length 4 dnsTypeA dnsMaxRdataText =
      ipv4Text (slice rdata 0 4) := by
  have hlt : (ipv4Text (slice rdata 0 4)).length < dnsMaxRdataText :=
    Nat.lt_of_le_of_lt (ipv4Text_length_le _) (by decide)
  have hin : before.length + 4 ≤ (before ++ (rdata ++ rest)).length := by simp [h]
  simp only [nsDnsFormatRdata, renderRdata, nsDnsFormatA, ↓reduceIte, ne_eq, not_true_eq_false, nsBoundsCheck_eq, hin,
    decide_true, Bool.not_true, Bool.false_eq_true, or_self, Option.getD_some, slice_rdata h, nsFormatIpv4]
  exact snprintf_of_lt hlt

theorem nsDnsFormatRdata_address16 (h : rdata.length = 16) :
    nsDnsFormatRdata (before ++ (rdata ++ rest)) before.length 16 dnsTypeAaaa dnsMaxRdataText =
      ipv6Text (slice rdata 0 16) := by
  have hne : dnsTypeAaaa ≠ dnsTypeA := by decide
  have hlt : (ipv6Text (slice rdata 0 16)).length < dnsMaxRdataText :=
    Nat.lt_of_le_of_lt (ipv6Text_length_le _) (by decide)
  have hin : before.length + 16 ≤ (before ++ (rdata ++ rest)).length := by simp [h]
  simp only [nsDnsFormatRdata, renderRdata, nsDnsFormatAaaa, hne, ↓reduceIte, ne_eq, not_true_eq_false, nsBoundsCheck_eq,
    hin, decide_true, Bool.not_true, Bool.false_eq_true, or_self, Option.getD_some, slice_rdata h, nsFormatIpv6]
  exact snprintf_of_lt hlt

end Rdata

theorem nsDnsParseRecord_encoded {before name : Bytes} {a : Answer} {pointers : ℕ}
    (h : EncodesName before a.labels name pointers) (hpointers : pointers ≤ 32)
    (htext : (dottedText a.labels).length ≤ 255) (rest : Bytes) :
    ∃ r, nsDnsParseRecord (before ++ (name ++ (a.body ++ rest))) before.length =
      .ok (r,(before ++ (name ++ a.body)).length) ∧ AnswerDecoded a r := by
  rw [nsDnsParseRecord_of_name (nsDnsDecodeName_encoded h hpointers htext (a.body ++ rest)), ← List.append_assoc,
    ← List.append_assoc before name a.body, ← List.length_append]
  generalize before ++ name = fixed
  have hsize : (UInt16.ofNat a.rdata.length).toNat = a.rdata.length :=
    UInt16.toNat_ofNat_of_lt' (Nat.lt_succ_of_le a.rdata_le)
  have htype : u16 (fixed ++ (a.body ++ rest)) fixed.length = a.type := by
    simp (disch := simp) [Answer.body, u16_skip]
  have hlength : u16 (fixed ++ (a.body ++ rest)) (fixed.length + 8) = UInt16.ofNat a.rdata.length := by
    simp (disch := simp) [Answer.body, u16_skip]
  have hbody : a.body.length = 10 + a.rdata.length := by
    simp only [Answer.body, List.length_append, be16_length, be32_length]
    omega
  have hin : fixed.length + 10 ≤ (fixed ++ (a.body ++ rest)).length ∧
      fixed.length + 10 + a.rdata.length ≤ (fixed ++ (a.body ++ rest)).length := by
    simp only [List.length_append, hbody]
    omega
  rw [hlength, hsize, if_pos hin, List.length_append, hbody, Nat.add_assoc]
  refine ⟨_,rfl,?_⟩
  have hrdata : fixed ++ (a.body ++ rest) = (fixed ++ (be16 a.type ++ (be16 a.rclass ++ (be32 a.ttl ++
      be16 (UInt16.ofNat a.rdata.length))))) ++ (a.rdata ++ rest) := by
    simp only [Answer.body, List.append_assoc]
  have hoffset : (fixed ++ (be16 a.type ++ (be16 a.rclass ++ (be32 a.ttl ++ be16 (UInt16.ofNat a.rdata.length))))).length =
      fixed.length + 10 := by
    simp only [List.length_append, be16_length, be32_length]
  constructor
  case name => rfl
  case type => exact htype
  case rclass => simp (disch := simp) [recordAt, Answer.body, u16_skip]
  case ttl => simp (disch := simp) [recordAt, Answer.body, u32_skip]
  case rdlength => rw [recordAt, hlength, hsize]
  case rdataA =>
    intro ha h4
    rw [recordAt, hlength, htype, ha, h4, hrdata, ← hoffset]
    exact nsDnsFormatRdata_address4 h4
  case rdataAaaa =>
    intro ha h16
    rw [recordAt, hlength, htype, ha, h16, hrdata, ← hoffset]
    exact nsDnsFormatRdata_address16 h16

theorem parseAnswers_encoded {before bytes : Bytes} {answers : List Answer}
    (h : EncodesSection Answer.labels Answer.body before answers bytes) (rest : Bytes) {count : ℕ}
    (hcount : count ≤ answers.length) :
    ∃ rs, parseAnswers (before ++ (bytes ++ rest)) count before.length = .ok rs ∧
      List.Forall₂ AnswerDecoded (answers.take count) rs := by
  induction h generalizing count with
  | nil =>
    obtain rfl := Nat.le_zero.mp hcount
    exact ⟨[],rfl,.nil⟩
  | @cons before name bytes a answers pointers hname hpointers htext _ ih =>
    cases count with
    | zero => exact ⟨[],rfl,.nil⟩
    | succ count =>
      obtain ⟨r,hr,hdecoded⟩ := nsDnsParseRecord_encoded hname hpointers htext (bytes ++ rest)
      obtain ⟨rs,hrs,hall⟩ := ih (Nat.le_of_succ_le_succ hcount)
      simp only [List.append_assoc] at hr hrs ⊢
      refine ⟨r :: rs,?_,.cons hdecoded hall⟩
      rw [parseAnswers_step hr, hrs]
      rfl

/-! ## Messages -/

/-- What the parser reports of a message. -/
structure Decoded (msg : Message) (info : DnsInfo) : Prop where
  transactionId : info.transactionId = msg.transactionId
  flags : info.flags = msg.flags
  isResponse : info.isResponse = decide (2 ^ 15 ≤ msg.flags.toNat)
  questionCount : info.questionCount.toNat = msg.questions.length
  answerCount : info.answerCount.toNat = msg.answers.length
  authorityCount : info.authorityCount = msg.authorityCount
  additionalCount : info.additionalCount = msg.additionalCount
  decodedQuestionCount : info.decodedQuestionCount = min msg.questions.length 4
  decodedAnswerCount : info.decodedAnswerCount = min msg.answers.length 12
  questions : info.questions = (msg.questions.take 4).map decodedQuestion
  answers : List.Forall₂ AnswerDecoded (msg.answers.take 12) info.answers

theorem topBit_iff (flags : UInt16) : flags &&& 0x8000 ≠ 0 ↔ 2 ^ 15 ≤ flags.toNat := by
  have hlt := flags.toNat_lt
  have hbit : flags.toNat.testBit 15 = decide (2 ^ 15 ≤ flags.toNat) := by
    rw [Nat.testBit_eq_decide_div_mod_eq]
    exact decide_eq_decide.mpr (by omega)
  have hand : (flags &&& 0x8000).toNat = 2 ^ 15 * (decide (2 ^ 15 ≤ flags.toNat)).toNat := by
    rw [UInt16.toNat_and, Nat.and_comm, ← hbit]
    exact Nat.two_pow_and flags.toNat 15
  rw [ne_eq, ← UInt16.toNat_inj, hand]
  simp

section Header
variable (msg : Message) (rest : Bytes)

theorem header_length : msg.header.length = 12 := by simp [Message.header]

theorem header_counts :
    u16 (msg.header ++ rest) 4 = UInt16.ofNat msg.questions.length ∧
      u16 (msg.header ++ rest) 6 = UInt16.ofNat msg.answers.length := by
  constructor
  · simp (disch := simp) [Message.header, u16_skip]
  · simp (disch := simp) [Message.header, u16_skip]

theorem header_words :
    u16 (msg.header ++ rest) 0 = msg.transactionId ∧ u16 (msg.header ++ rest) 2 = msg.flags ∧
      u16 (msg.header ++ rest) 8 = msg.authorityCount ∧ u16 (msg.header ++ rest) 10 = msg.additionalCount := by
  refine ⟨?_,?_,?_,?_⟩
  all_goals simp (disch := simp) [Message.header, u16_skip]

end Header

/-- Every serialisation of a message is accepted and decodes to the message. -/
theorem nsParseDns_encoded (msg : Message) (m : Bytes) (h : Encodes msg m) :
    ∃ info, nsParseDns m = .ok info ∧ Decoded msg info := by
  obtain ⟨questions,answers,rest,hquestions,hanswers,rfl⟩ := h
  obtain ⟨hid,hflags,hauthority,hadditional⟩ := header_words msg (questions ++ (answers ++ rest))
  obtain ⟨hqd,han⟩ := header_counts msg (questions ++ (answers ++ rest))
  have hqsize : (UInt16.ofNat msg.questions.length).toNat = msg.questions.length :=
    UInt16.toNat_ofNat_of_lt' (Nat.lt_succ_of_le msg.questions_le)
  have hasize : (UInt16.ofNat msg.answers.length).toNat = msg.answers.length :=
    UInt16.toNat_ofNat_of_lt' (Nat.lt_succ_of_le msg.answers_le)
  have hq := parseQuestions_encoded hquestions (answers ++ rest) 0
  obtain ⟨rs,hrs,hall⟩ := parseAnswers_encoded hanswers rest (min_le_left msg.answers.length dnsMaxAnswers)
  rw [header_length] at hq
  rw [List.append_assoc] at hrs
  have hok : nsParseDns (msg.header ++ (questions ++ (answers ++ rest))) =
      .ok (messageAt (msg.header ++ (questions ++ (answers ++ rest))) ((msg.questions.take 4).map decodedQuestion) rs) := by
    refine nsParseDns_ok_iff.mpr ⟨?_,(msg.questions.take 4).map decodedQuestion,(msg.header ++ questions).length,rs,?_,?_,rfl⟩
    · rw [List.length_append, header_length]
      omega
    · rw [hqd, hqsize]
      exact hq
    · rw [han, hasize]
      exact hrs
  have htake : msg.answers.take (min msg.answers.length dnsMaxAnswers) = msg.answers.take 12 := by
    rw [← List.take_take, List.take_of_length_le (List.length_take_le' _ _)]
  rw [htake] at hall
  refine ⟨_,hok,?_⟩
  constructor
  case transactionId => exact hid
  case flags => exact hflags
  case isResponse =>
    simp only [messageAt, hflags]
    exact decide_eq_decide.mpr (topBit_iff msg.flags)
  case questionCount => simp only [messageAt, hqd, hqsize]
  case answerCount => simp only [messageAt, han, hasize]
  case authorityCount => exact hauthority
  case additionalCount => exact hadditional
  case decodedQuestionCount => simp [DnsInfo.decodedQuestionCount, messageAt, min_comm]
  case decodedAnswerCount =>
    have hlen := hall.length_eq
    rw [List.length_take] at hlen
    exact hlen.symm.trans (min_comm _ _)
  case questions => rfl
  case answers => exact hall

/-- A response that gives an address for the name of its question. -/
def addressResponse : Message where
  transactionId := 0x1234
  flags := 0x8180
  authorityCount := 0
  additionalCount := 0
  questions := [⟨[[100,110,115],[111,114,103]],1,1⟩]
  answers := [⟨[[100,110,115],[111,114,103]],1,1,300,[192,0,2,1],by decide⟩]
  questions_le := by decide
  answers_le := by decide

/-- Its serialisation, with the owner name of the answer a pointer to the question. -/
def addressResponseBytes : Bytes :=
  addressResponse.header ++
    [3,100,110,115,3,111,114,103,0,0,1,0,1,
     0xC0,12,0,1,0,1,0,0,1,44,0,4,192,0,2,1]

theorem addressResponse_encodes : Encodes addressResponse addressResponseBytes := by
  have hname : EncodesName addressResponse.header [[100,110,115],[111,114,103]] [3,100,110,115,3,111,114,103,0] 0 :=
    .label (by decide) (by decide) (.label (by decide) (by decide) .root)
  refine ⟨_,_,[],.cons hname (by decide) (by decide) .nil,.cons (.pointer (by decide) hname) (by decide) (by decide) .nil,?_⟩
  decide

theorem nsParseDns_encoded_addressResponse :
    Encodes addressResponse addressResponseBytes ∧
      ∃ info, nsParseDns addressResponseBytes = .ok info ∧ Decoded addressResponse info :=
  ⟨addressResponse_encodes,nsParseDns_encoded addressResponse addressResponseBytes addressResponse_encodes⟩

end Netscope.DnsRoundTrip
