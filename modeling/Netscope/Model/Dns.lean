import Netscope.Model.Headers

/-! # The DNS message parser

A decoded name or rdata text is kept as the bytes written before the final NUL.
Labels are arbitrary bytes, so these may contain NUL themselves; the printers see
only `cString` of them.
-/
namespace Netscope
open ByteString Numerals

abbrev dnsMaxName : ℕ := 255
abbrev dnsMaxJumps : ℕ := 32
abbrev dnsMaxQuestions : ℕ := 4
abbrev dnsMaxAnswers : ℕ := 12
abbrev dnsMaxRdataText : ℕ := dnsMaxName + 8

abbrev dnsTypeA : UInt16 := 1
abbrev dnsTypeNs : UInt16 := 2
abbrev dnsTypeCname : UInt16 := 5
abbrev dnsTypePtr : UInt16 := 12
abbrev dnsTypeMx : UInt16 := 15
abbrev dnsTypeTxt : UInt16 := 16
abbrev dnsTypeAaaa : UInt16 := 28

structure DnsQuestion where
  name : Bytes
  type : UInt16
  qclass : UInt16
deriving DecidableEq, Repr

structure DnsRecord where
  name : Bytes
  type : UInt16
  rclass : UInt16
  ttl : UInt32
  rdlength : UInt16
  rdataText : Bytes
deriving DecidableEq, Repr

/-- `ns_dns_info_t`; the decoded counts are the lengths of the two lists. -/
structure DnsInfo where
  transactionId : UInt16
  flags : UInt16
  isResponse : Bool
  questionCount : UInt16
  answerCount : UInt16
  authorityCount : UInt16
  additionalCount : UInt16
  questions : List DnsQuestion
  answers : List DnsRecord
deriving DecidableEq, Repr

def DnsInfo.decodedQuestionCount (info : DnsInfo) : ℕ := info.questions.length
def DnsInfo.decodedAnswerCount (info : DnsInfo) : ℕ := info.answers.length

/-! ## Names -/

/-- Whether the top two bits of a length byte mark a compression pointer. -/
def isPointer (lenByte : UInt8) : Bool := lenByte &&& 0xC0 = 0xC0

/-- The 14-bit target of the pointer at `pos`. -/
def pointerTarget (data : Bytes) (pos : ℕ) : ℕ := (u16 data pos &&& 0x3FFF).toNat

/-- The text after one more label. -/
def appendLabel (text label : Bytes) : Bytes := (if text ≠ [] then text ++ [dot] else text) ++ label

theorem length_lt_appendLabel {text label : Bytes} (h : 0 < label.length) :
    text.length < (appendLabel text label).length := by
  unfold appendLabel
  split
  · rw [List.length_append, List.length_append]
    omega
  · rw [List.length_append]
    omega

/-- The text grows by every label that fits in the message. -/
theorem length_lt_appendLabel_chunk {data text : Bytes} {pos : ℕ} (h0 : u8 data pos ≠ 0)
    (hl : pos + 1 + (u8 data pos).toNat ≤ data.length) :
    text.length < (appendLabel text (chunk data (pos + 1) (u8 data pos).toNat)).length := by
  have hpos : 0 < (u8 data pos).toNat := by
    rw [Nat.pos_iff_ne_zero]
    intro h
    exact h0 (UInt8.toNat_inj.mp h)
  apply length_lt_appendLabel
  rw [chunk_length hl]
  exact hpos

/-- The loop of `ns_dns_decode_name`: position, text written so far, the end offset
once a pointer has set it, and the pointers followed. -/
def decodeNameLoop (data : Bytes) (outLen pos : ℕ) (text : Bytes) (endOffset : Option ℕ) (jumps : ℕ) :
    Parsed (Bytes × ℕ) :=
  if !nsBoundsCheck data.length pos 1 then .error .truncated
  else
    let lenByte := u8 data pos
    if isPointer lenByte then
      if !nsBoundsCheck data.length pos 2 then .error .truncated
      else if jumps + 1 > dnsMaxJumps then .error .malformed
      else decodeNameLoop data outLen (pointerTarget data pos) text (some (endOffset.getD (pos + 2))) (jumps + 1)
    else if lenByte &&& 0xC0 ≠ 0 then .error .malformed
    else if lenByte = 0 then .ok (text,endOffset.getD (pos + 1))
    else if !nsBoundsCheck data.length (pos + 1) lenByte.toNat then .error .truncated
    else if text.length + lenByte.toNat + 1 ≥ outLen then .error .malformed
    else decodeNameLoop data outLen (pos + 1 + lenByte.toNat)
      (appendLabel text (chunk data (pos + 1) lenByte.toNat)) endOffset jumps
termination_by (dnsMaxJumps - jumps) + (outLen - text.length)
decreasing_by
  · omega
  · rename_i h0 hl _
    have hlt := @length_lt_appendLabel_chunk data text pos h0 (by simpa using hl)
    omega

/-- The text of a name whose labels have been collected: the root prints as a dot. -/
def finishName (text : Bytes) : Bytes := if text.length = 0 then [dot] else text

def nsDnsDecodeName (data : Bytes) (offset outLen : ℕ) : Parsed (Bytes × ℕ) :=
  if outLen = 0 then .error .malformed
  else do
    let (text,endOffset) ← decodeNameLoop data outLen offset [] none 0
    return (finishName text,endOffset)

/-! ## Questions -/

def nsDnsParseQuestion (data : Bytes) (offset : ℕ) : Parsed (DnsQuestion × ℕ) := do
  let (name,nameEnd) ← nsDnsDecodeName data offset (dnsMaxName + 1)
  if !nsBoundsCheck data.length nameEnd 4 then throw .truncated
  return ({ name := name, type := u16 data nameEnd, qclass := u16 data (nameEnd + 2) }, nameEnd + 4)

/-! ## Rdata renderings

A renderer returns nothing where the source returns `false`. -/

def nsDnsFormatA (data : Bytes) (rdataOffset : ℕ) (rdlength : UInt16) (outLen : ℕ) : Option Bytes :=
  if rdlength ≠ 4 ∨ !nsBoundsCheck data.length rdataOffset 4 then none
  else some (nsFormatIpv4 (slice data rdataOffset 4) outLen)

def nsDnsFormatAaaa (data : Bytes) (rdataOffset : ℕ) (rdlength : UInt16) (outLen : ℕ) : Option Bytes :=
  if rdlength ≠ 16 ∨ !nsBoundsCheck data.length rdataOffset 16 then none
  else some (nsFormatIpv6 (slice data rdataOffset 16) outLen)

def nsDnsFormatNameRdata (data : Bytes) (rdataOffset outLen : ℕ) : Option Bytes :=
  match nsDnsDecodeName data rdataOffset outLen with
  | .ok (text,_) => some text
  | .error _ => none

def nsDnsFormatMx (data : Bytes) (rdataOffset outLen : ℕ) : Option Bytes :=
  if !nsBoundsCheck data.length rdataOffset 2 then none
  else
    match nsDnsDecodeName data (rdataOffset + 2) (dnsMaxName + 1) with
    | .ok (name,_) => some (snprintf outLen (decimal (u16 data rdataOffset).toNat ++ [32] ++ cString name))
    | .error _ => none

/-- The loop of `ns_dns_format_txt`, with the bytes written so far. -/
def formatTxtLoop (data : Bytes) (rdataOffset rdlength outLen pos : ℕ) (out : Bytes) : Bytes :=
  if pos < rdlength ∧ out.length + 1 < outLen then
    let segLen := (u8 data (rdataOffset + pos)).toNat
    if pos + 1 + segLen > rdlength then out
    else
      let copy := if out.length + segLen ≥ outLen then outLen - out.length - 1 else segLen
      formatTxtLoop data rdataOffset rdlength outLen (pos + 1 + segLen)
        (out ++ chunk data (rdataOffset + (pos + 1)) copy)
  else out
termination_by rdlength - pos

def nsDnsFormatTxt (data : Bytes) (rdataOffset : ℕ) (rdlength : UInt16) (outLen : ℕ) : Option Bytes :=
  if !nsBoundsCheck data.length rdataOffset rdlength.toNat then none
  else some (formatTxtLoop data rdataOffset rdlength.toNat outLen 0 [])

/-- The text that stands in for rdata that is not rendered. -/
def rdataPlaceholder (rdlength : UInt16) (outLen : ℕ) : Bytes :=
  snprintf outLen ([60] ++ decimal rdlength.toNat ++ ascii " bytes>")

/-- The renderer selected by the record type. -/
def renderRdata (data : Bytes) (rdataOffset : ℕ) (rdlength type : UInt16) (outLen : ℕ) : Option Bytes :=
  if type = dnsTypeA then nsDnsFormatA data rdataOffset rdlength outLen
  else if type = dnsTypeAaaa then nsDnsFormatAaaa data rdataOffset rdlength outLen
  else if type = dnsTypeCname ∨ type = dnsTypeNs ∨ type = dnsTypePtr then
    nsDnsFormatNameRdata data rdataOffset outLen
  else if type = dnsTypeMx then nsDnsFormatMx data rdataOffset outLen
  else if type = dnsTypeTxt then nsDnsFormatTxt data rdataOffset rdlength outLen
  else none

def nsDnsFormatRdata (data : Bytes) (rdataOffset : ℕ) (rdlength type : UInt16) (outLen : ℕ) : Bytes :=
  (renderRdata data rdataOffset rdlength type outLen).getD (rdataPlaceholder rdlength outLen)

/-! ## Records and messages -/

def nsDnsParseRecord (data : Bytes) (offset : ℕ) : Parsed (DnsRecord × ℕ) := do
  let (name,nameEnd) ← nsDnsDecodeName data offset (dnsMaxName + 1)
  if !nsBoundsCheck data.length nameEnd 10 then throw .truncated
  let type := u16 data nameEnd
  let rdlength := u16 data (nameEnd + 8)
  let rdataOffset := nameEnd + 10
  if !nsBoundsCheck data.length rdataOffset rdlength.toNat then throw .truncated
  return ({ name := name, type := type, rclass := u16 data (nameEnd + 2), ttl := u32 data (nameEnd + 4),
            rdlength := rdlength, rdataText := nsDnsFormatRdata data rdataOffset rdlength type dnsMaxRdataText },
    rdataOffset + rdlength.toNat)

/-- The question loop from question `i` on; only the first four are stored. -/
def parseQuestions (data : Bytes) : ℕ → ℕ → ℕ → Parsed (List DnsQuestion × ℕ)
  | 0, _, offset => .ok ([],offset)
  | remaining + 1, i, offset => do
    let (q,offset) ← nsDnsParseQuestion data offset
    let (qs,offset) ← parseQuestions data remaining (i + 1) offset
    return (if i < dnsMaxQuestions then q :: qs else qs, offset)

/-- The answer loop. -/
def parseAnswers (data : Bytes) : ℕ → ℕ → Parsed (List DnsRecord)
  | 0, _ => .ok []
  | remaining + 1, offset => do
    let (a,offset) ← nsDnsParseRecord data offset
    let as ← parseAnswers data remaining offset
    return a :: as

def nsParseDns (data : Bytes) : Parsed DnsInfo := do
  if !nsBoundsCheck data.length 0 12 then throw .truncated
  let flags := u16 data 2
  let qdcount := u16 data 4
  let ancount := u16 data 6
  let (questions,offset) ← parseQuestions data qdcount.toNat 0 12
  let answers ← parseAnswers data (min ancount.toNat dnsMaxAnswers) offset
  return { transactionId := u16 data 0, flags := flags, isResponse := flags &&& 0x8000 ≠ 0
           questionCount := qdcount, answerCount := ancount, authorityCount := u16 data 8
           additionalCount := u16 data 10, questions := questions, answers := answers }

end Netscope
