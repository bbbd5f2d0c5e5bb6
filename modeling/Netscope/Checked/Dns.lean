import Netscope.Checked.Headers
import Netscope.Dns.NameGrammar
import Netscope.Text.AddressText

/-! # The DNS parser with partial accesses

The buffers `name[256]`, `rdata_text[263]` and `tmp[46]` are arrays of cells, and
`questions[4]` and `answers[12]` are indexed by the decoded counters. A name loop
that exceeds its iteration bound is a fault as well.
-/
namespace Netscope.Checked
open ByteString PartialMemory Numerals

/-! ## Address formatting -/

def nsFormatIpv4 (addr : Ipv4Address) (buf : Cells) (bufLen : ℕ) : Exec Cells := printInto buf 0 bufLen (ipv4Text addr)

def loadGroups (addr : Bytes) : Exec (List UInt16) :=
  (List.range 8).mapM fun i => do
    let hi ← load addr (i * 2)
    let lo ← load addr (i * 2 + 1)
    return hi.toUInt16 <<< 8 ||| lo.toUInt16

/-- The separator before a group. -/
def emitSeparator (bestStart bestLen : ℤ) (i : ℕ) (tmp : Cells) (pos : ℕ) : Exec (Cells × ℕ) := do
  if i ≠ 0 ∧ (i : ℤ) ≠ bestStart + bestLen then
    let tmp ← store tmp pos colon
    return (tmp,← sizeAdd pos 1)
  return (tmp,pos)

def emitGroups (groups : List UInt16) (bestStart bestLen : ℤ) : ℕ → ℕ → Cells → ℕ → Exec (Cells × ℕ)
  | 0, i, tmp, pos => if i < 8 then throw .iterations else return (tmp,pos)
  | fuel + 1, i, tmp, pos => do
    if i < 8 then
      if (i : ℤ) = bestStart then
        let tmp ← store tmp pos colon
        let pos ← sizeAdd pos 1
        let tmp ← store tmp pos colon
        let pos ← sizeAdd pos 1
        emitGroups groups bestStart bestLen fuel (i + bestLen.toNat) tmp pos
      else
        let (tmp,pos) ← emitSeparator bestStart bestLen i tmp pos
        let text := hex (← element groups i).toNat
        let tmp ← printInto tmp pos (← sizeSub 46 pos) text
        let pos ← sizeAdd pos text.length
        emitGroups groups bestStart bestLen fuel (i + 1) tmp pos
    else return (tmp,pos)

/-- The fallback for an empty text. -/
def emitFallback (tmp : Cells) (pos : ℕ) : Exec (Cells × ℕ) := do
  if pos = 0 then
    let tmp ← store tmp pos colon
    let pos ← sizeAdd pos 1
    let tmp ← store tmp pos colon
    return (tmp,← sizeAdd pos 1)
  return (tmp,pos)

def nsFormatIpv6 (addr : Bytes) (buf : Cells) (bufLen : ℕ) : Exec Cells := do
  let groups ← loadGroups addr
  let run := bestZeroRun (groups.map (· == 0))
  let (tmp,pos) ← emitGroups groups run.1 run.2 8 0 (fresh 46) 0
  let (tmp,pos) ← emitFallback tmp pos
  let tmp ← store tmp pos 0
  printInto buf 0 bufLen (← loadString tmp)

/-! ## Names -/

/-- The buffer, its write position and the end offset of a name being decoded. -/
structure NameState where
  out : Cells
  outPos : ℕ
  endSet : Bool
  endOffset : Option ℕ
  jumps : ℕ

/-- `*end_offset = pos + size`, unless a pointer has set it before. -/
def markEnd (s : NameState) (pos size : ℕ) : Exec NameState := do
  if !s.endSet then return { s with endOffset := some (← sizeAdd pos size), endSet := true }
  return s

/-- The dot before a label that is not the first. -/
def writeDot (s : NameState) : Exec NameState := do
  if s.outPos ≠ 0 then return { s with out := ← store s.out s.outPos dot, outPos := ← sizeAdd s.outPos 1 }
  return s

def writeLabel (data : Bytes) (pos labelLen : ℕ) (s : NameState) : Exec NameState := do
  let s ← writeDot s
  let out ← storeRange s.out s.outPos (← loadRange data pos labelLen)
  return { s with out := out, outPos := ← sizeAdd s.outPos labelLen }

/-- The loop of `ns_dns_decode_name`; on success `out` is not yet terminated. -/
def decodeNameLoop (data : Bytes) (length outLen : ℕ) : ℕ → ℕ → NameState → Exec (ParseStatus × NameState)
  | 0, _, _ => throw .iterations
  | fuel + 1, pos, s => do
    let some lenByte ← nsReadU8 data length pos | return (.truncated,s)
    if isPointer lenByte then
      let some ptrField ← nsReadU16be data length pos | return (.truncated,s)
      let s ← markEnd s pos 2
      let s := { s with jumps := s.jumps + 1 }
      if s.jumps > dnsMaxJumps then return (.malformed,s)
      decodeNameLoop data length outLen fuel (ptrField &&& 0x3FFF).toNat s
    else if lenByte &&& 0xC0 ≠ 0 then return (.malformed,s)
    else if lenByte = 0 then return (.ok,← markEnd s pos 1)
    else
      let pos ← sizeAdd pos 1
      if !(← nsBoundsCheck length pos lenByte.toNat) then return (.truncated,s)
      let needed ← sizeAdd (← sizeAdd s.outPos lenByte.toNat) 1
      if needed ≥ outLen then return (.malformed,s)
      let s ← writeLabel data pos lenByte.toNat s
      decodeNameLoop data length outLen fuel (← sizeAdd pos lenByte.toNat) s

/-- The bound on the iterations: the pointers, the labels that fit and the last byte. -/
def nameIterations (outLen : ℕ) : ℕ := outLen / 2 + (dnsMaxJumps + 1)

/-- The dot of a name without labels. -/
def writeRoot (s : NameState) : Exec NameState := do
  if s.outPos = 0 then return { s with out := ← store s.out s.outPos dot, outPos := ← sizeAdd s.outPos 1 }
  return s

def nsDnsDecodeName (data : Bytes) (length offset : ℕ) (out : Cells) (outLen : ℕ) :
    Exec (ParseStatus × Cells × Option ℕ) := do
  if outLen = 0 then return (.malformed,out,none)
  let (status,s) ← decodeNameLoop data length outLen (nameIterations outLen) offset
    { out := out, outPos := 0, endSet := false, endOffset := none, jumps := 0 }
  if status ≠ .ok then return (status,s.out,s.endOffset)
  let s ← writeRoot s
  return (.ok,← store s.out s.outPos 0,s.endOffset)

/-! ## Questions -/

structure Question where
  name : Cells
  type : UInt16
  qclass : UInt16

/-- The buffer for the name: that of the slot, or a scratch buffer without one. -/
def nameBuffer : Option Question → Cells
  | some q => q.name
  | none => fresh (dnsMaxName + 1)

def nsDnsParseQuestion (data : Bytes) (length offset : ℕ) (out : Option Question) :
    Exec (ParseStatus × Option Question × ℕ) := do
  let (status,nameBuf,nameEnd) ← nsDnsDecodeName data length offset (nameBuffer out) (dnsMaxName + 1)
  let out := out.map fun q => { q with name := nameBuf }
  if status ≠ .ok then return (status,out,offset)
  let nameEnd ← use nameEnd
  if !(← nsBoundsCheck length nameEnd 4) then return (.truncated,out,offset)
  let type ← ignoring (nsReadU16be data length nameEnd)
  let qclass ← ignoring (nsReadU16be data length (← sizeAdd nameEnd 2))
  let out := out.map fun q => { q with type := type, qclass := qclass }
  return (.ok,out,← sizeAdd nameEnd 4)

/-! ## Rdata -/

def nsDnsFormatA (data : Bytes) (length rdataOffset : ℕ) (rdlength : UInt16) (out : Cells) (outLen : ℕ) :
    Exec (Bool × Cells) := do
  if rdlength ≠ 4 then return (false,out)
  if !(← nsBoundsCheck length rdataOffset 4) then return (false,out)
  let addr ← copyArray (← advance data rdataOffset) 0 4
  return (true,← nsFormatIpv4 addr out outLen)

def nsDnsFormatAaaa (data : Bytes) (length rdataOffset : ℕ) (rdlength : UInt16) (out : Cells) (outLen : ℕ) :
    Exec (Bool × Cells) := do
  if rdlength ≠ 16 then return (false,out)
  if !(← nsBoundsCheck length rdataOffset 16) then return (false,out)
  return (true,← nsFormatIpv6 (← advance data rdataOffset) out outLen)

def nsDnsFormatNameRdata (data : Bytes) (length rdataOffset : ℕ) (out : Cells) (outLen : ℕ) : Exec (Bool × Cells) := do
  let (status,out,_) ← nsDnsDecodeName data length rdataOffset out outLen
  return (decide (status = .ok),out)

def nsDnsFormatMx (data : Bytes) (length rdataOffset : ℕ) (out : Cells) (outLen : ℕ) : Exec (Bool × Cells) := do
  if !(← nsBoundsCheck length rdataOffset 2) then return (false,out)
  let some preference ← nsReadU16be data length rdataOffset | return (false,out)
  let (status,name,_) ← nsDnsDecodeName data length (← sizeAdd rdataOffset 2) (fresh (dnsMaxName + 1)) (dnsMaxName + 1)
  if status ≠ .ok then return (false,out)
  return (true,← printInto out 0 outLen (decimal preference.toNat ++ [32] ++ (← loadString name)))

/-- The bytes of a segment that are copied: all of them, or as many as leave room for
the NUL. -/
def segmentCopy (outLen outPos segLen : ℕ) : Exec ℕ := do
  if (← sizeAdd outPos segLen) ≥ outLen then sizeSub (← sizeSub outLen outPos) 1 else return segLen

def formatTxtLoop (data : Bytes) (rdataOffset rdlength outLen : ℕ) : ℕ → ℕ → Cells → ℕ → Exec (Cells × ℕ)
  | 0, _, _, _ => throw .iterations
  | fuel + 1, pos, out, outPos => do
    if pos < rdlength ∧ (← sizeAdd outPos 1) < outLen then
      let segLen := (← load data (← sizeAdd rdataOffset pos)).toNat
      let pos ← sizeAdd pos 1
      if (← sizeAdd pos segLen) > rdlength then return (out,outPos)
      let copy ← segmentCopy outLen outPos segLen
      let segment ← loadRange data (← sizeAdd rdataOffset pos) copy
      let out ← storeRange out outPos segment
      formatTxtLoop data rdataOffset rdlength outLen fuel (← sizeAdd pos segLen) out (← sizeAdd outPos copy)
    else return (out,outPos)

def nsDnsFormatTxt (data : Bytes) (length rdataOffset : ℕ) (rdlength : UInt16) (out : Cells) (outLen : ℕ) :
    Exec (Bool × Cells) := do
  if !(← nsBoundsCheck length rdataOffset rdlength.toNat) then return (false,out)
  let out ← store out 0 0
  let (out,outPos) ← formatTxtLoop data rdataOffset rdlength.toNat outLen (rdlength.toNat + 1) 0 out 0
  return (true,← store out outPos 0)

def renderRdata (data : Bytes) (length rdataOffset : ℕ) (rdlength type : UInt16) (out : Cells) (outLen : ℕ) :
    Exec (Bool × Cells) :=
  if type = dnsTypeA then nsDnsFormatA data length rdataOffset rdlength out outLen
  else if type = dnsTypeAaaa then nsDnsFormatAaaa data length rdataOffset rdlength out outLen
  else if type = dnsTypeCname ∨ type = dnsTypeNs ∨ type = dnsTypePtr then
    nsDnsFormatNameRdata data length rdataOffset out outLen
  else if type = dnsTypeMx then nsDnsFormatMx data length rdataOffset out outLen
  else if type = dnsTypeTxt then nsDnsFormatTxt data length rdataOffset rdlength out outLen
  else return (false,out)

def nsDnsFormatRdata (data : Bytes) (length rdataOffset : ℕ) (rdlength type : UInt16) (out : Cells) (outLen : ℕ) :
    Exec Cells := do
  let (ok,out) ← renderRdata data length rdataOffset rdlength type out outLen
  if ok then return out
  printInto out 0 outLen ([60] ++ decimal rdlength.toNat ++ ascii " bytes>")

/-! ## Records and messages -/

structure Record where
  name : Cells
  type : UInt16
  rclass : UInt16
  ttl : UInt32
  rdlength : UInt16
  rdataText : Cells

def nsDnsParseRecord (data : Bytes) (length offset : ℕ) (out : Record) : Exec (ParseStatus × Record × ℕ) := do
  let (status,name,nameEnd) ← nsDnsDecodeName data length offset (fresh (dnsMaxName + 1)) (dnsMaxName + 1)
  if status ≠ .ok then return (status,out,offset)
  let nameEnd ← use nameEnd
  if !(← nsBoundsCheck length nameEnd 10) then return (.truncated,out,offset)
  let type ← ignoring (nsReadU16be data length nameEnd)
  let rclass ← ignoring (nsReadU16be data length (← sizeAdd nameEnd 2))
  let ttl ← ignoring (nsReadU32be data length (← sizeAdd nameEnd 4))
  let rdlength ← ignoring (nsReadU16be data length (← sizeAdd nameEnd 8))
  let rdataOffset ← sizeAdd nameEnd 10
  if !(← nsBoundsCheck length rdataOffset rdlength.toNat) then return (.truncated,out,offset)
  let rdataText ← nsDnsFormatRdata data length rdataOffset rdlength type out.rdataText dnsMaxRdataText
  return (.ok, { name := name, type := type, rclass := rclass, ttl := ttl, rdlength := rdlength, rdataText := rdataText },
    ← sizeAdd rdataOffset rdlength.toNat)

structure Info where
  transactionId : UInt16
  flags : UInt16
  isResponse : Bool
  questionCount : UInt16
  answerCount : UInt16
  authorityCount : UInt16
  additionalCount : UInt16
  decodedQuestionCount : ℕ
  questions : List Question
  decodedAnswerCount : ℕ
  answers : List Record

/-- The structure after `memset`. -/
def Info.zero : Info where
  transactionId := 0
  flags := 0
  isResponse := false
  questionCount := 0
  answerCount := 0
  authorityCount := 0
  additionalCount := 0
  decodedQuestionCount := 0
  questions := List.replicate dnsMaxQuestions ⟨zeroed (dnsMaxName + 1),0,0⟩
  decodedAnswerCount := 0
  answers := List.replicate dnsMaxAnswers ⟨zeroed (dnsMaxName + 1),0,0,0,0,zeroed dnsMaxRdataText⟩

def parseQuestions (data : Bytes) (length : ℕ) : ℕ → ℕ → ℕ → Info → Exec (ParseStatus × Info × ℕ)
  | 0, _, offset, out => return (.ok,out,offset)
  | remaining + 1, i, offset, out => do
    if i < dnsMaxQuestions then
      let slot ← element out.questions out.decodedQuestionCount
      let (status,slot,offset) ← nsDnsParseQuestion data length offset (some slot)
      let out := { out with questions := out.questions.set out.decodedQuestionCount (← use slot) }
      if status ≠ .ok then return (status,out,offset)
      parseQuestions data length remaining (i + 1) offset
        { out with decodedQuestionCount := ← sizeAdd out.decodedQuestionCount 1 }
    else
      let (status,_,offset) ← nsDnsParseQuestion data length offset none
      if status ≠ .ok then return (status,out,offset)
      parseQuestions data length remaining (i + 1) offset out

def parseAnswers (data : Bytes) (length : ℕ) : ℕ → ℕ → Info → Exec (ParseStatus × Info)
  | 0, _, out => return (.ok,out)
  | remaining + 1, offset, out => do
    let slot ← element out.answers out.decodedAnswerCount
    let (status,slot,offset) ← nsDnsParseRecord data length offset slot
    let out := { out with answers := out.answers.set out.decodedAnswerCount slot }
    if status ≠ .ok then return (status,out)
    parseAnswers data length remaining offset { out with decodedAnswerCount := ← sizeAdd out.decodedAnswerCount 1 }

def nsParseDns (data : Bytes) (length : ℕ) (out : Info) : Exec (ParseStatus × Info) := do
  if !(← nsBoundsCheck length 0 12) then return (.truncated,out)
  let txnId ← ignoring (nsReadU16be data length 0)
  let flags ← ignoring (nsReadU16be data length 2)
  let qdcount ← ignoring (nsReadU16be data length 4)
  let ancount ← ignoring (nsReadU16be data length 6)
  let nscount ← ignoring (nsReadU16be data length 8)
  let arcount ← ignoring (nsReadU16be data length 10)
  let out := { Info.zero with
    transactionId := txnId, flags := flags, isResponse := flags &&& 0x8000 ≠ 0, questionCount := qdcount
    answerCount := ancount, authorityCount := nscount, additionalCount := arcount }
  let (status,out,offset) ← parseQuestions data length qdcount.toNat 0 12 out
  if status ≠ .ok then return (status,out)
  parseAnswers data length (min ancount.toNat dnsMaxAnswers) offset out

end Netscope.Checked
