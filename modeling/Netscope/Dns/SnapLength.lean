import Netscope.Dns.MessageSpecs
import Netscope.Layers.SnapLength

/-! # Capturing more bytes of a DNS message

Names and name-typed rdata jump anywhere in the message. Every byte the decoder has
read lies inside the capture, so a verdict other than `truncated` and everything
decoded survive further bytes; only an rdata text that fell back to its placeholder
may be rendered after all.
-/
namespace Netscope.SnapLength
open ByteString Numerals PartialMemory

theorem pointerTarget_stable {a b : Bytes} (h : a <+: b) {pos : ℕ} (hp : pos + 2 ≤ a.length) :
    pointerTarget b pos = pointerTarget a pos := by
  rw [pointerTarget, pointerTarget, u16_stable h hp]

/-- The loop reads only captured bytes, wherever its pointers lead. -/
theorem decodeNameLoop_stable {a b : Bytes} (h : a <+: b) {outLen pos : ℕ} {text : Bytes} {endOffset : Option ℕ}
    {jumps : ℕ} (hne : decodeNameLoop a outLen pos text endOffset jumps ≠ .error .truncated) :
    decodeNameLoop b outLen pos text endOffset jumps = decodeNameLoop a outLen pos text endOffset jumps := by
  have hlen := h.length_le
  fun_induction decodeNameLoop a outLen pos text endOffset jumps with
  | case1 | case2 | case7 => exact absurd rfl hne
  | case3 pos text endOffset jumps hp lenByte hptr hp2 hjumps =>
    simp only [nsBoundsCheck_eq, Bool.not_eq_true, Bool.not_eq_false', decide_eq_true_eq] at hp hp2
    have hb : u8 b pos = u8 a pos := u8_stable h hp
    rw [decodeNameLoop]
    simp [hb, hp.trans hlen, hp2.trans hlen, hjumps, show isPointer (u8 a pos) = true from hptr]
  | case4 pos text endOffset jumps hp lenByte hptr hp2 hjumps ih =>
    simp only [nsBoundsCheck_eq, Bool.not_eq_true, Bool.not_eq_false', decide_eq_true_eq] at hp hp2
    have hb : u8 b pos = u8 a pos := u8_stable h hp
    rw [← ih hne, decodeNameLoop]
    simp [hb, hp.trans hlen, hp2.trans hlen, hjumps, show isPointer (u8 a pos) = true from hptr,
      pointerTarget_stable h hp2]
  | case5 pos text endOffset jumps hp lenByte hptr hres =>
    simp only [nsBoundsCheck_eq, Bool.not_eq_true, Bool.not_eq_false', decide_eq_true_eq] at hp
    have hb : u8 b pos = u8 a pos := u8_stable h hp
    rw [decodeNameLoop]
    simp [hb, hp.trans hlen, show isPointer (u8 a pos) = false by simpa using hptr, show u8 a pos &&& 0xC0 ≠ 0 from hres]
  | case6 pos text endOffset jumps hp lenByte hptr hres h0 =>
    simp only [nsBoundsCheck_eq, Bool.not_eq_true, Bool.not_eq_false', decide_eq_true_eq] at hp
    have hb : u8 b pos = 0 := (u8_stable h hp).trans h0
    rw [decodeNameLoop]
    simp [hb, hp.trans hlen, isPointer]
  | case8 pos text endOffset jumps hp lenByte hptr hres h0 hl hfit =>
    simp only [nsBoundsCheck_eq, Bool.not_eq_true, Bool.not_eq_false', decide_eq_true_eq] at hp hl
    replace hfit : outLen ≤ text.length + (u8 a pos).toNat + 1 := hfit
    replace hl : pos + 1 + (u8 a pos).toNat ≤ a.length := hl
    have hb : u8 b pos = u8 a pos := u8_stable h hp
    rw [decodeNameLoop]
    simp [hb, hp.trans hlen, show isPointer (u8 a pos) = false by simpa using hptr,
      show u8 a pos &&& 0xC0 = 0 by simpa using hres, show u8 a pos ≠ 0 from h0, hl.trans hlen, hfit]
  | case9 pos text endOffset jumps hp lenByte hptr hres h0 hl hfit ih =>
    simp only [nsBoundsCheck_eq, Bool.not_eq_true, Bool.not_eq_false', decide_eq_true_eq] at hp hl
    replace hfit : ¬outLen ≤ text.length + (u8 a pos).toNat + 1 := hfit
    replace hl : pos + 1 + (u8 a pos).toNat ≤ a.length := hl
    have hb : u8 b pos = u8 a pos := u8_stable h hp
    rw [← ih hne, decodeNameLoop]
    simp [hb, hp.trans hlen, show isPointer (u8 a pos) = false by simpa using hptr,
      show u8 a pos &&& 0xC0 = 0 by simpa using hres, show u8 a pos ≠ 0 from h0, hl.trans hlen, hfit, chunk_stable h hl, lenByte]

section Parsers
variable {a b : Bytes} (h : a <+: b) {offset : ℕ}
include h

theorem nsDnsDecodeName_stable {outLen : ℕ} (hne : nsDnsDecodeName a offset outLen ≠ .error .truncated) :
    nsDnsDecodeName b offset outLen = nsDnsDecodeName a offset outLen := by
  unfold nsDnsDecodeName at hne ⊢
  by_cases h0 : outLen = 0
  · rw [if_pos h0, if_pos h0]
  · rw [if_neg h0] at hne ⊢
    rw [if_neg h0, decodeNameLoop_stable h]
    intro he
    rw [he] at hne
    exact hne rfl

theorem nsDnsParseQuestion_stable (hne : nsDnsParseQuestion a offset ≠ .error .truncated) :
    nsDnsParseQuestion b offset = nsDnsParseQuestion a offset := by
  have hlen := h.length_le
  cases hm : nsDnsDecodeName a offset (dnsMaxName + 1) with
  | error e =>
    have he := nsDnsParseQuestion_of_error hm
    have hname : nsDnsDecodeName a offset (dnsMaxName + 1) ≠ .error .truncated := by
      intro hx
      obtain rfl := Except.error.inj (hm.symm.trans hx)
      exact hne he
    rw [he]
    exact nsDnsParseQuestion_of_error ((nsDnsDecodeName_stable h hname).trans hm)
  | ok m =>
    have hm' := (nsDnsDecodeName_stable h (fun he => nomatch hm.symm.trans he)).trans hm
    rw [nsDnsParseQuestion_of_name hm] at hne ⊢
    rw [nsDnsParseQuestion_of_name hm']
    by_cases hb : m.2 + 4 ≤ a.length
    · rw [if_pos hb, if_pos (hb.trans hlen), u16_stable h (by omega), u16_stable h (by omega)]
    · rw [if_neg hb] at hne
      exact absurd rfl hne

theorem parseQuestions_stable {remaining i : ℕ} (hne : parseQuestions a remaining i offset ≠ .error .truncated) :
    parseQuestions b remaining i offset = parseQuestions a remaining i offset := by
  induction remaining generalizing i offset with
  | zero => rfl
  | succ remaining ih =>
    cases hm : nsDnsParseQuestion a offset with
    | error e =>
      have he := @parseQuestions_step_error a offset remaining i e hm
      have hq : nsDnsParseQuestion a offset ≠ .error .truncated := by
        intro hx
        obtain rfl := Except.error.inj (hm.symm.trans hx)
        exact hne he
      rw [he]
      exact parseQuestions_step_error ((nsDnsParseQuestion_stable h hq).trans hm)
    | ok m =>
      have hm' := (nsDnsParseQuestion_stable h (fun he => nomatch hm.symm.trans he)).trans hm
      rw [parseQuestions_step hm] at hne ⊢
      rw [parseQuestions_step hm', ih]
      intro he
      rw [he] at hne
      exact hne rfl

/-! ## Rdata -/

/-- The segments of a captured TXT rdata are all captured. -/
theorem formatTxtLoop_stable {rdataOffset rdlength : ℕ} (hr : rdataOffset + rdlength ≤ a.length) (outLen pos : ℕ)
    (out : Bytes) :
    formatTxtLoop b rdataOffset rdlength outLen pos out = formatTxtLoop a rdataOffset rdlength outLen pos out := by
  fun_induction formatTxtLoop a rdataOffset rdlength outLen pos out with
  | case1 pos out hpos segLen hover =>
    have hb : u8 b (rdataOffset + pos) = u8 a (rdataOffset + pos) := u8_stable h (by omega)
    rw [formatTxtLoop, if_pos hpos, hb]
    exact if_pos hover
  | case2 pos out hpos segLen hover copy ih =>
    have hb : u8 b (rdataOffset + pos) = u8 a (rdataOffset + pos) := u8_stable h (by omega)
    have hcopy : copy ≤ segLen := by
      simp only [copy]
      split <;> omega
    rw [formatTxtLoop, if_pos hpos, hb]
    refine (if_neg hover).trans ?_
    rw [← ih, ← chunk_stable h (show rdataOffset + (pos + 1) + copy ≤ a.length by omega)]
    rfl
  | case3 pos out hpos => rw [formatTxtLoop, if_neg hpos]

section Renderers
variable {rdataOffset outLen : ℕ} {rdlength : UInt16} {text : Bytes}

theorem nsDnsFormatA_stable (hsome : nsDnsFormatA a rdataOffset rdlength outLen = some text) :
    nsDnsFormatA b rdataOffset rdlength outLen = some text := by
  have hlen := h.length_le
  unfold nsDnsFormatA at hsome ⊢
  simp only [nsBoundsCheck_eq] at hsome ⊢
  by_cases hb : rdataOffset + 4 ≤ a.length
  · rw [slice_stable h hb]
    simpa [hb, hb.trans hlen] using hsome
  · simp [hb] at hsome

theorem nsDnsFormatAaaa_stable (hsome : nsDnsFormatAaaa a rdataOffset rdlength outLen = some text) :
    nsDnsFormatAaaa b rdataOffset rdlength outLen = some text := by
  have hlen := h.length_le
  unfold nsDnsFormatAaaa at hsome ⊢
  simp only [nsBoundsCheck_eq] at hsome ⊢
  by_cases hb : rdataOffset + 16 ≤ a.length
  · rw [slice_stable h hb]
    simpa [hb, hb.trans hlen] using hsome
  · simp [hb] at hsome

theorem nsDnsDecodeName_stable_ok {r : Bytes × ℕ} (hm : nsDnsDecodeName a offset outLen = .ok r) :
    nsDnsDecodeName b offset outLen = .ok r :=
  (nsDnsDecodeName_stable h (fun he => nomatch hm.symm.trans he)).trans hm

theorem nsDnsFormatNameRdata_stable (hsome : nsDnsFormatNameRdata a rdataOffset outLen = some text) :
    nsDnsFormatNameRdata b rdataOffset outLen = some text := by
  unfold nsDnsFormatNameRdata at hsome ⊢
  cases hm : nsDnsDecodeName a rdataOffset outLen with
  | error e =>
    rw [hm] at hsome
    cases hsome
  | ok m =>
    rw [hm] at hsome
    rw [nsDnsDecodeName_stable_ok h hm]
    exact hsome

theorem nsDnsFormatMx_stable (hsome : nsDnsFormatMx a rdataOffset outLen = some text) :
    nsDnsFormatMx b rdataOffset outLen = some text := by
  have hlen := h.length_le
  unfold nsDnsFormatMx at hsome ⊢
  simp only [nsBoundsCheck_eq] at hsome ⊢
  by_cases hb : rdataOffset + 2 ≤ a.length
  · rw [u16_stable h hb]
    cases hm : nsDnsDecodeName a (rdataOffset + 2) (dnsMaxName + 1) with
    | error e => simp [hb, hm] at hsome
    | ok m =>
      rw [nsDnsDecodeName_stable_ok h hm]
      rw [hm] at hsome
      simpa [hb, hb.trans hlen] using hsome
  · simp [hb] at hsome

theorem nsDnsFormatTxt_stable (hsome : nsDnsFormatTxt a rdataOffset rdlength outLen = some text) :
    nsDnsFormatTxt b rdataOffset rdlength outLen = some text := by
  have hlen := h.length_le
  unfold nsDnsFormatTxt at hsome ⊢
  simp only [nsBoundsCheck_eq] at hsome ⊢
  by_cases hb : rdataOffset + rdlength.toNat ≤ a.length
  · rw [formatTxtLoop_stable h hb]
    simpa [hb, hb.trans hlen] using hsome
  · simp [hb] at hsome

/-- A rendering survives further bytes. -/
theorem renderRdata_stable {type : UInt16} (hsome : renderRdata a rdataOffset rdlength type outLen = some text) :
    renderRdata b rdataOffset rdlength type outLen = some text := by
  unfold renderRdata at hsome ⊢
  split at hsome
  · rw [if_pos ‹_›]
    exact nsDnsFormatA_stable h hsome
  · rw [if_neg ‹_›]
    split at hsome
    · rw [if_pos ‹_›]
      exact nsDnsFormatAaaa_stable h hsome
    · rw [if_neg ‹_›]
      split at hsome
      · rw [if_pos ‹_›]
        exact nsDnsFormatNameRdata_stable h hsome
      · rw [if_neg ‹_›]
        split at hsome
        · rw [if_pos ‹_›]
          exact nsDnsFormatMx_stable h hsome
        · rw [if_neg ‹_›]
          split at hsome
          · rw [if_pos ‹_›]
            exact nsDnsFormatTxt_stable h hsome
          · cases hsome

end Renderers

/-- What a decoded answer keeps when more bytes are captured: everything, apart from a
text that was only the placeholder. -/
structure AnswerKept (r r' : DnsRecord) : Prop where
  name : r'.name = r.name
  type : r'.type = r.type
  rclass : r'.rclass = r.rclass
  ttl : r'.ttl = r.ttl
  rdlength : r'.rdlength = r.rdlength
  rdataText : r.rdataText ≠ rdataPlaceholder r.rdlength dnsMaxRdataText → r'.rdataText = r.rdataText

theorem recordAt_kept {name : Bytes} {nameEnd : ℕ} (hb : nameEnd + 10 ≤ a.length) :
    AnswerKept (recordAt a name nameEnd) (recordAt b name nameEnd) where
  name := rfl
  type := u16_stable h (by omega)
  rclass := u16_stable h (by omega)
  ttl := u32_stable h (by omega)
  rdlength := u16_stable h (by omega)
  rdataText := by
    intro hne
    simp only [recordAt, nsDnsFormatRdata, u16_stable h (show nameEnd + 2 ≤ a.length by omega),
      u16_stable h (show nameEnd + 8 + 2 ≤ a.length by omega)] at hne ⊢
    cases hr : renderRdata a (nameEnd + 10) (u16 a (nameEnd + 8)) (u16 a nameEnd) dnsMaxRdataText with
    | none =>
      rw [hr] at hne
      exact absurd rfl hne
    | some text => rw [renderRdata_stable h hr]

theorem nsDnsParseRecord_malformed {e : ParseError} (he : e ≠ .truncated) (hm : nsDnsParseRecord a offset = .error e) :
    nsDnsParseRecord b offset = .error e := by
  cases hn : nsDnsDecodeName a offset (dnsMaxName + 1) with
  | error e' =>
    obtain rfl := Except.error.inj ((nsDnsParseRecord_of_error hn).symm.trans hm)
    have hname : nsDnsDecodeName a offset (dnsMaxName + 1) ≠ .error .truncated := by
      intro hx
      exact he (Except.error.inj (hn.symm.trans hx))
    exact nsDnsParseRecord_of_error ((nsDnsDecodeName_stable h hname).trans hn)
  | ok m =>
    rw [nsDnsParseRecord_of_name hn] at hm
    split at hm
    · cases hm
    · exact absurd (Except.error.inj hm).symm he

theorem nsDnsParseRecord_kept {r : DnsRecord} {stop : ℕ} (hm : nsDnsParseRecord a offset = .ok (r,stop)) :
    ∃ r', nsDnsParseRecord b offset = .ok (r',stop) ∧ AnswerKept r r' := by
  have hlen := h.length_le
  cases hn : nsDnsDecodeName a offset (dnsMaxName + 1) with
  | error e => exact nomatch (nsDnsParseRecord_of_error hn).symm.trans hm
  | ok m =>
    rw [nsDnsParseRecord_of_name hn] at hm
    by_cases hb : m.2 + 10 ≤ a.length ∧ m.2 + 10 + (u16 a (m.2 + 8)).toNat ≤ a.length
    · rw [if_pos hb] at hm
      obtain ⟨rfl,rfl⟩ := Prod.mk.inj (Except.ok.inj hm)
      have hrd : u16 b (m.2 + 8) = u16 a (m.2 + 8) := u16_stable h (by omega)
      refine ⟨recordAt b m.1 m.2,?_,recordAt_kept h hb.1⟩
      rw [nsDnsParseRecord_of_name (nsDnsDecodeName_stable_ok h hn), hrd, if_pos ⟨hb.1.trans hlen,hb.2.trans hlen⟩]
    · rw [if_neg hb] at hm
      cases hm

theorem parseAnswers_malformed {remaining : ℕ} {e : ParseError} (he : e ≠ .truncated)
    (hm : parseAnswers a remaining offset = .error e) : parseAnswers b remaining offset = .error e := by
  induction remaining generalizing offset with
  | zero => cases hm
  | succ remaining ih =>
    cases hr : nsDnsParseRecord a offset with
    | error e' =>
      obtain rfl := Except.error.inj ((parseAnswers_step_error hr).symm.trans hm)
      exact parseAnswers_step_error (nsDnsParseRecord_malformed h he hr)
    | ok m =>
      obtain ⟨r',hr',_⟩ := nsDnsParseRecord_kept h hr
      rw [parseAnswers_step hr] at hm
      rw [parseAnswers_step hr']
      cases hs : parseAnswers a remaining m.2 with
      | error e' =>
        rw [hs] at hm
        obtain rfl := Except.error.inj hm
        rw [ih hs]
        rfl
      | ok as =>
        rw [hs] at hm
        cases hm

theorem parseAnswers_kept {remaining : ℕ} {as : List DnsRecord} (hm : parseAnswers a remaining offset = .ok as) :
    ∃ as', parseAnswers b remaining offset = .ok as' ∧ List.Forall₂ AnswerKept as as' := by
  induction remaining generalizing offset as with
  | zero =>
    obtain rfl := Except.ok.inj hm
    exact ⟨[],rfl,.nil⟩
  | succ remaining ih =>
    obtain ⟨r,stop,rest,hr,hs,rfl⟩ := parseAnswers_ok hm
    obtain ⟨r',hr',hkept⟩ := nsDnsParseRecord_kept h hr
    obtain ⟨rest',hs',hall⟩ := ih hs
    refine ⟨r' :: rest',?_,.cons hkept hall⟩
    rw [parseAnswers_step hr', hs']
    rfl

/-- What an accepted message keeps when more bytes are captured. -/
structure MessageKept (r r' : DnsInfo) : Prop where
  transactionId : r'.transactionId = r.transactionId
  flags : r'.flags = r.flags
  isResponse : r'.isResponse = r.isResponse
  questionCount : r'.questionCount = r.questionCount
  answerCount : r'.answerCount = r.answerCount
  authorityCount : r'.authorityCount = r.authorityCount
  additionalCount : r'.additionalCount = r.additionalCount
  decodedQuestionCount : r'.decodedQuestionCount = r.decodedQuestionCount
  decodedAnswerCount : r'.decodedAnswerCount = r.decodedAnswerCount
  questions : r'.questions = r.questions
  answers : List.Forall₂ AnswerKept r.answers r'.answers

theorem nsParseDns_kept {r : DnsInfo} (hm : nsParseDns a = .ok r) : ∃ r', nsParseDns b = .ok r' ∧ MessageKept r r' := by
  obtain ⟨h12,questions,offset,answers,hq,ha,rfl⟩ := nsParseDns_ok_iff.mp hm
  obtain ⟨answers',ha',hall⟩ := parseAnswers_kept h ha
  have hu : ∀ i, i + 2 ≤ 12 → u16 b i = u16 a i := fun i hi => u16_stable h (by omega)
  have hq' : parseQuestions b (u16 b 4).toNat 0 12 = .ok (questions,offset) := by
    rw [hu 4 (by omega), ← hq]
    exact parseQuestions_stable h (fun he => nomatch hq.symm.trans he)
  refine ⟨messageAt b questions answers',nsParseDns_ok_iff.mpr ⟨h12.trans h.length_le,questions,offset,answers',hq',?_,rfl⟩,?_⟩
  · rw [hu 6 (by omega)]
    exact ha'
  · constructor
    case decodedQuestionCount => rfl
    case decodedAnswerCount => exact hall.length_eq.symm
    case questions => rfl
    case answers => exact hall
    case isResponse => simp only [messageAt, hu 2 (by omega)]
    all_goals exact hu _ (by omega)

theorem nsParseDns_malformed {e : ParseError} (he : e ≠ .truncated) (hm : nsParseDns a = .error e) :
    nsParseDns b = .error e := by
  by_cases h12 : 12 ≤ a.length
  · have hu : ∀ i, i + 2 ≤ 12 → u16 b i = u16 a i := fun i hi => u16_stable h (by omega)
    rw [nsParseDns_eq h12] at hm
    rw [nsParseDns_eq (h12.trans h.length_le), hu 4 (by omega), hu 6 (by omega)]
    cases hq : parseQuestions a (u16 a 4).toNat 0 12 with
    | error e' =>
      rw [hq] at hm
      obtain rfl := Except.error.inj hm
      have hne : parseQuestions a (u16 a 4).toNat 0 12 ≠ .error .truncated := by
        intro hx
        exact he (Except.error.inj (hq.symm.trans hx))
      rw [parseQuestions_stable h hne, hq]
      rfl
    | ok qs =>
      rw [hq] at hm
      rw [parseQuestions_stable h (fun hx => nomatch hq.symm.trans hx), hq]
      cases ha : parseAnswers a (min (u16 a 6).toNat dnsMaxAnswers) qs.2 with
      | error e' =>
        simp only [ok_bind, ha, error_bind] at hm
        obtain rfl := Except.error.inj hm
        simp only [ok_bind, parseAnswers_malformed h he ha, error_bind]
      | ok as =>
        simp only [ok_bind, ha] at hm
        cases hm
  · rw [nsParseDns_short h12] at hm
    exact absurd (Except.error.inj hm).symm he

end Parsers

/-- Of two captures of a message, the longer one confirms every verdict of the shorter
one other than `truncated`, and all it decoded. -/
theorem nsParseDns_snapLength (m : Bytes) (s₁ s₂ : ℕ) (hs : s₁ ≤ s₂) :
    (nsParseDns (m.take s₁) = .error .malformed → nsParseDns (m.take s₂) = .error .malformed) ∧
    ∀ r₁, nsParseDns (m.take s₁) = .ok r₁ → ∃ r₂, nsParseDns (m.take s₂) = .ok r₂ ∧ MessageKept r₁ r₂ := by
  have hpre : m.take s₁ <+: m.take s₂ := List.take_prefix_take_left hs
  constructor
  · exact nsParseDns_malformed hpre (by simp)
  · intro r₁ hr
    exact nsParseDns_kept hpre hr

/-- A response with an address and an alias, followed by one more byte. -/
def aliasResponse : Bytes :=
  [0x12,0x34,0x81,0x80,0,1,0,2,0,0,0,0,1,97,0,0,1,0,1,
    0xC0,12,0,1,0,1,0,0,0,60,0,4,192,0,2,1,
    0xC0,12,0,5,0,1,0,0,0,60,0,4,1,98,0xC0,12,0xFF]

theorem nsParseDns_snapLength_aliasResponse :
    51 ≤ 52 ∧ nsParseDns (aliasResponse.take 51) = .ok ⟨0x1234,0x8180,true,1,2,0,0,[⟨[97],1,1⟩],
      [⟨[97],1,1,60,4,ascii "192.0.2.1"⟩,⟨[97],5,1,60,4,ascii "b.a"⟩]⟩ ∧
    (nsParseDns (aliasResponse.take 51) = .error .malformed → nsParseDns (aliasResponse.take 52) = .error .malformed) ∧
    ∀ r₁, nsParseDns (aliasResponse.take 51) = .ok r₁ →
      ∃ r₂, nsParseDns (aliasResponse.take 52) = .ok r₂ ∧ MessageKept r₁ r₂ :=
  ⟨by decide,by decide +kernel,nsParseDns_snapLength aliasResponse 51 52 (by decide)⟩

end Netscope.SnapLength
