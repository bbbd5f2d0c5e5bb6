import Netscope.Library.CountedRuns
import Netscope.Dns.MessageSpecs
import Netscope.Dns.NameGrammar

/-! # The work of the DNS parser

`dns.c` once more with a count of its work: one for each iteration of a loop whose number
of iterations depends on the message, and one for each byte that such a loop copies. The
eight groups of an IPv6 address are not counted. The parser may be led through the same
labels again and again by compression pointers, but only so far for every name, and names
are paid for by the bytes behind them.
-/
namespace Netscope.Work
open ByteString Numerals PartialMemory CountedRuns Attempt DnsName

abbrev Parsing := Attempt ParseError

/-! ## Names -/

def decodeNameLoop (data : Bytes) (outLen pos : ℕ) (text : Bytes) (endOffset : Option ℕ) (jumps : ℕ) :
    Parsing (Bytes × ℕ) :=
  after 1 <|
    if !nsBoundsCheck data.length pos 1 then throw .truncated
    else
      let lenByte := u8 data pos
      if isPointer lenByte then
        if !nsBoundsCheck data.length pos 2 then throw .truncated
        else if jumps + 1 > dnsMaxJumps then throw .malformed
        else decodeNameLoop data outLen (pointerTarget data pos) text (some (endOffset.getD (pos + 2))) (jumps + 1)
      else if lenByte &&& 0xC0 ≠ 0 then throw .malformed
      else if lenByte = 0 then return (text,endOffset.getD (pos + 1))
      else if !nsBoundsCheck data.length (pos + 1) lenByte.toNat then throw .truncated
      else if text.length + lenByte.toNat + 1 ≥ outLen then throw .malformed
      else after lenByte.toNat (decodeNameLoop data outLen (pos + 1 + lenByte.toNat)
        (appendLabel text (chunk data (pos + 1) lenByte.toNat)) endOffset jumps)
termination_by (dnsMaxJumps - jumps) + (outLen - text.length)
decreasing_by
  · omega
  · rename_i h0 hl _
    have hlt := @length_lt_appendLabel_chunk data text pos h0 (by simpa using hl)
    omega

def nsDnsDecodeName (data : Bytes) (offset outLen : ℕ) : Parsing (Bytes × ℕ) :=
  if outLen = 0 then throw .malformed
  else do
    let (text,endOffset) ← decodeNameLoop data outLen offset [] none 0
    return (finishName text,endOffset)

section Names
variable {data : Bytes} {offset outLen : ℕ}

theorem decodeNameLoop_result (pos : ℕ) (text : Bytes) (endOffset : Option ℕ) (jumps : ℕ) :
    (decodeNameLoop data outLen pos text endOffset jumps).result =
      Netscope.decodeNameLoop data outLen pos text endOffset jumps := by
  rw [decodeNameLoop, Netscope.decodeNameLoop, result_after]
  dsimp only
  split_ifs with hp hptr hp2 hjumps hres h0 hl hfit
  · rfl
  · rfl
  · rfl
  · exact decodeNameLoop_result _ _ _ _
  · rfl
  · rfl
  · rfl
  · rfl
  · rw [result_after]
    exact decodeNameLoop_result _ _ _ _
termination_by (dnsMaxJumps - jumps) + (outLen - text.length)
decreasing_by
  · omega
  · have hlt := @length_lt_appendLabel_chunk data text pos h0 (by simpa using hl)
    omega

@[simp] theorem nsDnsDecodeName_result : (nsDnsDecodeName data offset outLen).result = Netscope.nsDnsDecodeName data offset outLen := by
  unfold nsDnsDecodeName Netscope.nsDnsDecodeName
  split
  · rfl
  · rw [result_bind, decodeNameLoop_result]
    rfl

/-- What the loop may still do: the jumps that are left and the bytes that still fit. -/
def nameBound (outLen : ℕ) (text : Bytes) (jumps : ℕ) : ℕ :=
  (dnsMaxJumps - jumps) + (outLen - text.length) + if text = [] then 2 else 1

theorem nameBound_pos (outLen : ℕ) (text : Bytes) (jumps : ℕ) : 1 ≤ nameBound outLen text jumps := by
  unfold nameBound
  split <;> omega

/-- A jump is paid for by the jumps that are left. -/
theorem nameBound_jump {text : Bytes} {jumps : ℕ} (h : jumps + 1 ≤ dnsMaxJumps) :
    1 + nameBound outLen text (jumps + 1) ≤ nameBound outLen text jumps := by
  unfold nameBound
  omega

/-- A label is paid for by the bytes it takes in the buffer. -/
theorem nameBound_label {text label : Bytes} {jumps : ℕ} (h : text.length + label.length + 1 < outLen) (hpos : 0 < label.length) :
    1 + (label.length + nameBound outLen (appendLabel text label) jumps) ≤ nameBound outLen text jumps := by
  have hne : appendLabel text label ≠ [] := List.ne_nil_of_length_pos (Nat.zero_lt_of_lt (length_lt_appendLabel hpos))
  unfold nameBound
  rw [if_neg hne]
  by_cases htext : text = []
  · subst htext
    rw [appendLabel_nil, if_pos rfl, List.length_nil] at *
    omega
  · rw [appendLabel_length _ htext, if_neg htext]
    omega

theorem decodeNameLoop_work (pos : ℕ) (text : Bytes) (endOffset : Option ℕ) (jumps : ℕ) :
    (decodeNameLoop data outLen pos text endOffset jumps).work ≤ nameBound outLen text jumps := by
  have hpos := nameBound_pos outLen text jumps
  rw [decodeNameLoop, work_after]
  dsimp only
  split_ifs with hp hptr hp2 hjumps hres h0 hl hfit
  · exact hpos
  · exact hpos
  · exact hpos
  · have hrest := decodeNameLoop_work (pointerTarget data pos) text (some (endOffset.getD (pos + 2))) (jumps + 1)
    have hjump := @nameBound_jump outLen text jumps (not_lt.mp hjumps)
    omega
  · exact hpos
  · exact hpos
  · exact hpos
  · exact hpos
  · have hlen : (chunk data (pos + 1) (u8 data pos).toNat).length = (u8 data pos).toNat := chunk_length (by simpa using hl)
    have hrest := decodeNameLoop_work (pos + 1 + (u8 data pos).toNat)
      (appendLabel text (chunk data (pos + 1) (u8 data pos).toNat)) endOffset jumps
    have hlabel := @nameBound_label outLen text (chunk data (pos + 1) (u8 data pos).toNat) jumps
      (by rw [hlen]; exact not_le.mp hfit) (by rw [hlen]; exact Nat.pos_of_ne_zero fun hz => h0 (UInt8.toNat_inj.mp hz))
    rw [hlen] at hlabel
    rw [work_after]
    omega
termination_by (dnsMaxJumps - jumps) + (outLen - text.length)
decreasing_by
  · omega
  · have hlt := @length_lt_appendLabel_chunk data text pos h0 (by simpa using hl)
    omega

/-- However its pointers lead, a name costs no more than its buffer and the jumps. -/
theorem nsDnsDecodeName_work : (nsDnsDecodeName data offset outLen).work ≤ outLen + 34 := by
  unfold nsDnsDecodeName
  split
  · exact Nat.zero_le _
  · have hloop := @decodeNameLoop_work data outLen offset [] none 0
    have hbound : nameBound outLen [] 0 = outLen + 34 := by
      simp only [nameBound, ↓reduceIte, List.length_nil, dnsMaxJumps]
      omega
    exact (work_bind_le (n := 0) (hloop.trans hbound.le) fun _ _ => le_rfl).trans (Nat.add_zero _).le

end Names

/-! ## Questions -/

def nsDnsParseQuestion (data : Bytes) (offset : ℕ) : Parsing (DnsQuestion × ℕ) := do
  let (name,nameEnd) ← nsDnsDecodeName data offset (dnsMaxName + 1)
  if !nsBoundsCheck data.length nameEnd 4 then throw .truncated
  else return ({ name := name, type := u16 data nameEnd, qclass := u16 data (nameEnd + 2) },nameEnd + 4)

def parseQuestions (data : Bytes) : ℕ → ℕ → ℕ → Parsing (List DnsQuestion × ℕ)
  | 0, _, offset => return ([],offset)
  | remaining + 1, i, offset => after 1 do
    let (q,offset) ← nsDnsParseQuestion data offset
    let (qs,offset) ← parseQuestions data remaining (i + 1) offset
    return (if i < dnsMaxQuestions then q :: qs else qs,offset)

section Questions
variable {data : Bytes} {offset : ℕ}

@[simp] theorem nsDnsParseQuestion_result :
    (nsDnsParseQuestion data offset).result = Netscope.nsDnsParseQuestion data offset := by
  rw [nsDnsParseQuestion, result_bind, nsDnsDecodeName_result]
  cases hname : Netscope.nsDnsDecodeName data offset (dnsMaxName + 1) with
  | error e => rw [nsDnsParseQuestion_of_error hname, error_bind]
  | ok r =>
    rw [nsDnsParseQuestion_of_name hname, ok_bind]
    dsimp only
    by_cases hin : r.2 + 4 ≤ data.length
    · simp [hin]
    · simp [hin]

/-- An accepted question has taken its name and four bytes. -/
theorem question_stop {q : DnsQuestion} {stop : ℕ} (h : Netscope.nsDnsParseQuestion data offset = .ok (q,stop)) :
    offset + 5 ≤ stop ∧ stop ≤ data.length := by
  obtain ⟨nameEnd,hname,hstop,hin⟩ := nsDnsParseQuestion_ok h
  obtain ⟨labels,pointers,hchain,-⟩ := (nsDnsDecodeName_ok_iff (by decide) _ _).mp hname
  have hbounds := hchain.stop_bounds
  omega

theorem nsDnsParseQuestion_work : (nsDnsParseQuestion data offset).work ≤ 290 := by
  refine work_bind_le (n := 0) nsDnsDecodeName_work fun r _ => ?_
  dsimp only
  split
  · exact le_rfl
  · exact le_rfl

@[simp] theorem parseQuestions_result (remaining i : ℕ) :
    (parseQuestions data remaining i offset).result = Netscope.parseQuestions data remaining i offset := by
  induction remaining generalizing i offset with
  | zero => rfl
  | succ remaining ih =>
    rw [parseQuestions, result_after, result_bind, nsDnsParseQuestion_result, Netscope.parseQuestions]
    cases Netscope.nsDnsParseQuestion data offset with
    | error e => rfl
    | ok r =>
      rw [ok_bind, ok_bind]
      dsimp only
      rw [result_bind, ih]
      rfl

/-- The questions cost 59 for every byte behind the header, and one question more. -/
theorem parseQuestions_work (remaining i : ℕ) :
    (parseQuestions data remaining i offset).work ≤ 59 * (data.length - offset) + 291 := by
  induction remaining generalizing i offset with
  | zero => exact Nat.zero_le _
  | succ remaining ih =>
    rw [parseQuestions, work_after]
    have hstep := work_bind_le (f := fun x => do
      let (qs,stop) ← parseQuestions data remaining (i + 1) x.2
      return (if i < dnsMaxQuestions then x.1 :: qs else qs,stop)) (n := 59 * (data.length - offset))
      (@nsDnsParseQuestion_work data offset) fun x hx => ?_
    · exact (Nat.add_le_add_left hstep 1).trans (by omega)
    · obtain ⟨hlow,hhigh⟩ := question_stop (nsDnsParseQuestion_result.symm.trans hx)
      have hrest := work_bind_le (n := 0) (f := fun y => (pure (if i < dnsMaxQuestions then x.1 :: y.1 else y.1,y.2) :
        Parsing (List DnsQuestion × ℕ))) (@ih x.2 (i + 1)) fun _ _ => le_rfl
      exact hrest.trans (by omega)

end Questions

/-! ## Rdata -/

def nsDnsFormatNameRdata (data : Bytes) (rdataOffset outLen : ℕ) : Counted (Option Bytes) := do
  match ← (nsDnsDecodeName data rdataOffset outLen).run with
  | .ok (text,_) => return some text
  | .error _ => return none

def nsDnsFormatMx (data : Bytes) (rdataOffset outLen : ℕ) : Counted (Option Bytes) :=
  if !nsBoundsCheck data.length rdataOffset 2 then return none
  else do
    match ← (nsDnsDecodeName data (rdataOffset + 2) (dnsMaxName + 1)).run with
    | .ok (name,_) =>
      return some (snprintf outLen (decimal (u16 data rdataOffset).toNat ++ [32] ++ cString name))
    | .error _ => return none

def formatTxtLoop (data : Bytes) (rdataOffset rdlength outLen pos : ℕ) (out : Bytes) : Counted Bytes :=
  if pos < rdlength ∧ out.length + 1 < outLen then
    let segLen := (u8 data (rdataOffset + pos)).toNat
    if pos + 1 + segLen > rdlength then Counted.after 1 (return out)
    else
      let copy := if out.length + segLen ≥ outLen then outLen - out.length - 1 else segLen
      Counted.after (1 + copy) (formatTxtLoop data rdataOffset rdlength outLen (pos + 1 + segLen)
        (out ++ chunk data (rdataOffset + (pos + 1)) copy))
  else return out
termination_by rdlength - pos

def nsDnsFormatTxt (data : Bytes) (rdataOffset : ℕ) (rdlength : UInt16) (outLen : ℕ) : Counted (Option Bytes) :=
  if !nsBoundsCheck data.length rdataOffset rdlength.toNat then return none
  else do
    let text ← formatTxtLoop data rdataOffset rdlength.toNat outLen 0 []
    return some text

/-- Addresses are rendered without a loop over the message. -/
def renderRdata (data : Bytes) (rdataOffset : ℕ) (rdlength type : UInt16) (outLen : ℕ) : Counted (Option Bytes) :=
  if type = dnsTypeA then return nsDnsFormatA data rdataOffset rdlength outLen
  else if type = dnsTypeAaaa then return nsDnsFormatAaaa data rdataOffset rdlength outLen
  else if type = dnsTypeCname ∨ type = dnsTypeNs ∨ type = dnsTypePtr then nsDnsFormatNameRdata data rdataOffset outLen
  else if type = dnsTypeMx then nsDnsFormatMx data rdataOffset outLen
  else if type = dnsTypeTxt then nsDnsFormatTxt data rdataOffset rdlength outLen
  else return none

def nsDnsFormatRdata (data : Bytes) (rdataOffset : ℕ) (rdlength type : UInt16) (outLen : ℕ) : Counted Bytes := do
  let text ← renderRdata data rdataOffset rdlength type outLen
  return text.getD (rdataPlaceholder rdlength outLen)

section Rdata
variable {data : Bytes} {rdataOffset outLen : ℕ} {rdlength : UInt16}

theorem run_value {α : Type} (x : Parsing α) : x.run.value = x.result := rfl

@[simp] theorem nsDnsFormatNameRdata_value :
    (nsDnsFormatNameRdata data rdataOffset outLen).value = Netscope.nsDnsFormatNameRdata data rdataOffset outLen := by
  rw [nsDnsFormatNameRdata, Counted.value_bind, run_value, nsDnsDecodeName_result, Netscope.nsDnsFormatNameRdata]
  cases Netscope.nsDnsDecodeName data rdataOffset outLen <;> rfl

@[simp] theorem nsDnsFormatMx_value : (nsDnsFormatMx data rdataOffset outLen).value = Netscope.nsDnsFormatMx data rdataOffset outLen := by
  unfold nsDnsFormatMx Netscope.nsDnsFormatMx
  split
  · rfl
  · rw [Counted.value_bind, run_value, nsDnsDecodeName_result]
    cases Netscope.nsDnsDecodeName data (rdataOffset + 2) (dnsMaxName + 1) <;> rfl

theorem formatTxtLoop_value (n pos : ℕ) (out : Bytes) :
    (formatTxtLoop data rdataOffset n outLen pos out).value = Netscope.formatTxtLoop data rdataOffset n outLen pos out := by
  rw [formatTxtLoop, Netscope.formatTxtLoop]
  dsimp only
  split_ifs with hmore hlast hfull
  · rfl
  · exact formatTxtLoop_value n _ _
  · exact formatTxtLoop_value n _ _
  · rfl
termination_by n - pos

@[simp] theorem nsDnsFormatTxt_value :
    (nsDnsFormatTxt data rdataOffset rdlength outLen).value = Netscope.nsDnsFormatTxt data rdataOffset rdlength outLen := by
  unfold nsDnsFormatTxt Netscope.nsDnsFormatTxt
  split
  · rfl
  · rw [Counted.value_bind, formatTxtLoop_value]
    rfl

@[simp] theorem nsDnsFormatRdata_value (type : UInt16) :
    (nsDnsFormatRdata data rdataOffset rdlength type outLen).value =
      Netscope.nsDnsFormatRdata data rdataOffset rdlength type outLen := by
  have hrender : (renderRdata data rdataOffset rdlength type outLen).value =
      Netscope.renderRdata data rdataOffset rdlength type outLen := by
    unfold renderRdata Netscope.renderRdata
    split_ifs
    · rfl
    · rfl
    · exact nsDnsFormatNameRdata_value
    · exact nsDnsFormatMx_value
    · exact nsDnsFormatTxt_value
    · rfl
  rw [nsDnsFormatRdata, Counted.value_bind, hrender]
  rfl

/-- Each iteration over a text is paid for by the bytes of the text it passes. -/
theorem formatTxtLoop_work (n pos : ℕ) (out : Bytes) : (formatTxtLoop data rdataOffset n outLen pos out).work ≤ n - pos := by
  rw [formatTxtLoop]
  dsimp only
  split_ifs with hmore hlast hfull
  · rw [Counted.work_after, Counted.work_pure]
    omega
  · have hrest := formatTxtLoop_work n (pos + 1 + (u8 data (rdataOffset + pos)).toNat)
      (out ++ chunk data (rdataOffset + (pos + 1)) (outLen - out.length - 1))
    rw [Counted.work_after]
    omega
  · have hrest := formatTxtLoop_work n (pos + 1 + (u8 data (rdataOffset + pos)).toNat)
      (out ++ chunk data (rdataOffset + (pos + 1)) (u8 data (rdataOffset + pos)).toNat)
    rw [Counted.work_after]
    omega
  · exact Nat.zero_le _
termination_by n - pos

theorem nsDnsFormatNameRdata_work : (nsDnsFormatNameRdata data rdataOffset outLen).work ≤ outLen + 34 := by
  have hname : (nsDnsDecodeName data rdataOffset outLen).run.work ≤ outLen + 34 := nsDnsDecodeName_work
  rw [nsDnsFormatNameRdata, Counted.work_bind]
  split
  · exact hname
  · exact hname

theorem nsDnsFormatMx_work : (nsDnsFormatMx data rdataOffset outLen).work ≤ 290 := by
  have hname : (nsDnsDecodeName data (rdataOffset + 2) (dnsMaxName + 1)).run.work ≤ 290 := nsDnsDecodeName_work
  unfold nsDnsFormatMx
  split
  · exact Nat.zero_le _
  · rw [Counted.work_bind]
    split
    · exact hname
    · exact hname

theorem nsDnsFormatRdata_work (type : UInt16) :
    (nsDnsFormatRdata data rdataOffset rdlength type dnsMaxRdataText).work ≤ 297 + rdlength.toNat := by
  have hrender : (renderRdata data rdataOffset rdlength type dnsMaxRdataText).work ≤ 297 + rdlength.toNat := by
    unfold renderRdata
    split_ifs
    · exact Nat.zero_le _
    · exact Nat.zero_le _
    · exact nsDnsFormatNameRdata_work.trans (Nat.le_add_right _ _)
    · exact nsDnsFormatMx_work.trans (by omega)
    · unfold nsDnsFormatTxt
      split
      · exact Nat.zero_le _
      · exact (formatTxtLoop_work _ 0 []).trans (by omega)
    · exact Nat.zero_le _
  exact hrender

end Rdata

/-! ## Records and messages -/

def nsDnsParseRecord (data : Bytes) (offset : ℕ) : Parsing (DnsRecord × ℕ) := do
  let (name,nameEnd) ← nsDnsDecodeName data offset (dnsMaxName + 1)
  if !nsBoundsCheck data.length nameEnd 10 then throw .truncated
  else
    let type := u16 data nameEnd
    let rdlength := u16 data (nameEnd + 8)
    let rdataOffset := nameEnd + 10
    if !nsBoundsCheck data.length rdataOffset rdlength.toNat then throw .truncated
    else
      let rdataText ← nsDnsFormatRdata data rdataOffset rdlength type dnsMaxRdataText
      return ({ name := name, type := type, rclass := u16 data (nameEnd + 2), ttl := u32 data (nameEnd + 4),
                rdlength := rdlength, rdataText := rdataText },rdataOffset + rdlength.toNat)

def parseAnswers (data : Bytes) : ℕ → ℕ → Parsing (List DnsRecord)
  | 0, _ => return []
  | remaining + 1, offset => after 1 do
    let (a,offset) ← nsDnsParseRecord data offset
    let as ← parseAnswers data remaining offset
    return a :: as

def nsParseDns (data : Bytes) : Parsing DnsInfo :=
  if !nsBoundsCheck data.length 0 12 then throw .truncated
  else do
    let flags := u16 data 2
    let qdcount := u16 data 4
    let ancount := u16 data 6
    let (questions,offset) ← parseQuestions data qdcount.toNat 0 12
    let answers ← parseAnswers data (min ancount.toNat dnsMaxAnswers) offset
    return { transactionId := u16 data 0, flags := flags, isResponse := flags &&& 0x8000 ≠ 0
             questionCount := qdcount, answerCount := ancount, authorityCount := u16 data 8
             additionalCount := u16 data 10, questions := questions, answers := answers }

section Messages
variable {data : Bytes} {offset : ℕ}

@[simp] theorem nsDnsParseRecord_result : (nsDnsParseRecord data offset).result = Netscope.nsDnsParseRecord data offset := by
  rw [nsDnsParseRecord, result_bind, nsDnsDecodeName_result]
  cases hname : Netscope.nsDnsDecodeName data offset (dnsMaxName + 1) with
  | error e => rw [nsDnsParseRecord_of_error hname, error_bind]
  | ok r =>
    obtain ⟨name,nameEnd⟩ := r
    rw [nsDnsParseRecord_of_name hname, ok_bind]
    dsimp only
    by_cases hin : nameEnd + 10 ≤ data.length
    · by_cases hrdata : nameEnd + 10 + (u16 data (nameEnd + 8)).toNat ≤ data.length
      · simp [hin, hrdata, recordAt]
      · simp [hin, hrdata]
    · simp [hin]

/-- An accepted record has taken its rdata. -/
theorem record_stop {a : DnsRecord} {stop : ℕ} (h : Netscope.nsDnsParseRecord data offset = .ok (a,stop)) :
    offset + a.rdlength.toNat ≤ stop ∧ stop ≤ data.length := by
  obtain ⟨nameEnd,hname,ha,hstop⟩ := nsDnsParseRecord_ok h
  obtain ⟨labels,pointers,hchain,-⟩ := (nsDnsDecodeName_ok_iff (by decide) _ _).mp hname
  have hbounds := hchain.stop_bounds
  rw [nsDnsParseRecord_of_name hname] at h
  split at h
  · rename_i hin
    have hend := (Prod.mk.inj (Except.ok.inj h)).2
    omega
  · cases h

theorem nsDnsParseRecord_work_ok {a : DnsRecord} {stop : ℕ} (h : Netscope.nsDnsParseRecord data offset = .ok (a,stop)) :
    (nsDnsParseRecord data offset).work ≤ 587 + a.rdlength.toNat := by
  obtain ⟨nameEnd,hname,ha,-⟩ := nsDnsParseRecord_ok h
  have hfirst : (nsDnsDecodeName data offset (dnsMaxName + 1)).work ≤ 290 := nsDnsDecodeName_work
  have hrdata := @nsDnsFormatRdata_work data (nameEnd + 10) (u16 data (nameEnd + 8)) (u16 data nameEnd)
  have hlength : a.rdlength = u16 data (nameEnd + 8) := by
    rw [ha]
    rfl
  rw [nsDnsParseRecord, work_bind_of_ok (nsDnsDecodeName_result.trans hname), hlength]
  dsimp only
  split_ifs
  · rw [work_throw]
    omega
  · rw [work_throw]
    omega
  · have hrest : ∀ x : DnsRecord × ℕ, (pure x : Parsing (DnsRecord × ℕ)).work ≤ 0 := fun _ => le_rfl
    have hlifted := work_bind_le (x := (monadLift (nsDnsFormatRdata data (nameEnd + 10) (u16 data (nameEnd + 8))
      (u16 data nameEnd) dnsMaxRdataText) : Parsing Bytes)) (n := 0) hrdata fun text _ => hrest
        (⟨a.name,u16 data nameEnd,u16 data (nameEnd + 2),u32 data (nameEnd + 4),u16 data (nameEnd + 8),text⟩,
          nameEnd + 10 + (u16 data (nameEnd + 8)).toNat)
    exact (Nat.add_le_add hfirst hlifted).trans (by omega)

/-- A rejected record has decoded a name at most. -/
theorem nsDnsParseRecord_work_error {e : ParseError} (h : Netscope.nsDnsParseRecord data offset = .error e) :
    (nsDnsParseRecord data offset).work ≤ 290 := by
  have hfirst : (nsDnsDecodeName data offset (dnsMaxName + 1)).work ≤ 290 := nsDnsDecodeName_work
  cases hname : Netscope.nsDnsDecodeName data offset (dnsMaxName + 1) with
  | error e' =>
    rw [nsDnsParseRecord, work_bind_of_error (nsDnsDecodeName_result.trans hname)]
    exact hfirst
  | ok r =>
    obtain ⟨name,nameEnd⟩ := r
    rw [nsDnsParseRecord_of_name hname] at h
    rw [nsDnsParseRecord, work_bind_of_ok (nsDnsDecodeName_result.trans hname)]
    dsimp only
    split_ifs with hfixed hrdata
    · exact hfirst
    · exact hfirst
    · simp only [nsBoundsCheck_eq, Bool.not_eq_true', decide_eq_false_iff_not, not_not] at hfixed hrdata
      rw [if_pos ⟨hfixed,hrdata⟩] at h
      cases h

@[simp] theorem parseAnswers_result (remaining : ℕ) :
    (parseAnswers data remaining offset).result = Netscope.parseAnswers data remaining offset := by
  induction remaining generalizing offset with
  | zero => rfl
  | succ remaining ih =>
    rw [parseAnswers, result_after, result_bind, nsDnsParseRecord_result, Netscope.parseAnswers]
    cases Netscope.nsDnsParseRecord data offset with
    | error e => rfl
    | ok r =>
      rw [ok_bind, ok_bind]
      dsimp only
      rw [result_bind, ih]
      rfl

/-- An answer costs its rdata and a fixed amount. -/
theorem parseAnswers_work (remaining : ℕ) :
    (parseAnswers data remaining offset).work ≤ 588 * remaining + (data.length - offset) := by
  induction remaining generalizing offset with
  | zero => exact Nat.zero_le _
  | succ remaining ih =>
    rw [parseAnswers, work_after]
    cases hrecord : Netscope.nsDnsParseRecord data offset with
    | error e =>
      have hstep := nsDnsParseRecord_work_error hrecord
      rw [work_bind_of_error (nsDnsParseRecord_result.trans hrecord)]
      omega
    | ok r =>
      obtain ⟨a,stop⟩ := r
      obtain ⟨hlow,hhigh⟩ := record_stop hrecord
      have hstep := nsDnsParseRecord_work_ok hrecord
      have hrest := work_bind_le (n := 0) (f := fun as => (pure (a :: as) : Parsing (List DnsRecord))) (@ih stop)
        fun _ _ => le_rfl
      rw [work_bind_of_ok (nsDnsParseRecord_result.trans hrecord)]
      exact (Nat.add_le_add_left (Nat.add_le_add hstep hrest) 1).trans (by omega)

theorem nsParseDns_result : (nsParseDns data).result = Netscope.nsParseDns data := by
  unfold nsParseDns
  by_cases hlen : 12 ≤ data.length
  · rw [if_neg (by simp [hlen]), nsParseDns_eq hlen]
    rw [result_bind, parseQuestions_result]
    cases Netscope.parseQuestions data (u16 data 4).toNat 0 12 with
    | error e => rfl
    | ok r =>
      rw [ok_bind, ok_bind]
      dsimp only
      rw [result_bind, parseAnswers_result]
      rfl
  · rw [if_pos (by simp [not_le.mp hlen]), nsParseDns_short hlen]
    rfl

/-- The work on a message is linear in its length, whatever its counts and pointers. -/
theorem nsParseDns_work (data : Bytes) : (nsParseDns data).work ≤ 60 * data.length + 7347 := by
  unfold nsParseDns
  split
  · exact Nat.zero_le _
  · have hquestions := @parseQuestions_work data 12 (u16 data 4).toNat 0
    refine (work_bind_le (n := 588 * 12 + data.length) hquestions fun r _ => ?_).trans (by omega)
    have hanswers := @parseAnswers_work data r.2 (min (u16 data 6).toNat dnsMaxAnswers)
    have hcount : min (u16 data 6).toNat dnsMaxAnswers ≤ 12 := Nat.min_le_right _ _
    exact (work_bind_le (n := 0) hanswers fun _ _ => le_rfl).trans (by omega)

end Messages

end Netscope.Work
