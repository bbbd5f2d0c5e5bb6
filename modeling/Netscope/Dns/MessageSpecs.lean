import Netscope.Library.PartialMemory
import Netscope.Model.Dns

/-! # The message parsers by their first name

What the question and record parsers return, given the verdict on the name they
start with, and what the two loops return, given the verdict on their first step.
-/
namespace Netscope
open ByteString PartialMemory

section Specs
variable {data : Bytes} {offset : ℕ} {name : Bytes} {nameEnd : ℕ}

theorem nsDnsParseQuestion_of_error {e : ParseError} (h : nsDnsDecodeName data offset (dnsMaxName + 1) = .error e) :
    nsDnsParseQuestion data offset = .error e := by
  simp only [nsDnsParseQuestion, h, error_bind]

theorem nsDnsParseQuestion_of_name (h : nsDnsDecodeName data offset (dnsMaxName + 1) = .ok (name,nameEnd)) :
    nsDnsParseQuestion data offset =
      if nameEnd + 4 ≤ data.length then .ok (⟨name,u16 data nameEnd,u16 data (nameEnd + 2)⟩,nameEnd + 4)
      else .error .truncated := by
  by_cases hb : nameEnd + 4 ≤ data.length
  · simp [nsDnsParseQuestion, h, hb]
  · simp [nsDnsParseQuestion, h, hb]

theorem nsDnsParseRecord_of_error {e : ParseError} (h : nsDnsDecodeName data offset (dnsMaxName + 1) = .error e) :
    nsDnsParseRecord data offset = .error e := by
  simp only [nsDnsParseRecord, h, error_bind]

/-- The record whose fixed fields start at `nameEnd`. -/
def recordAt (data name : Bytes) (nameEnd : ℕ) : DnsRecord where
  name := name
  type := u16 data nameEnd
  rclass := u16 data (nameEnd + 2)
  ttl := u32 data (nameEnd + 4)
  rdlength := u16 data (nameEnd + 8)
  rdataText := nsDnsFormatRdata data (nameEnd + 10) (u16 data (nameEnd + 8)) (u16 data nameEnd) dnsMaxRdataText

theorem nsDnsParseRecord_of_name (h : nsDnsDecodeName data offset (dnsMaxName + 1) = .ok (name,nameEnd)) :
    nsDnsParseRecord data offset =
      if nameEnd + 10 ≤ data.length ∧ nameEnd + 10 + (u16 data (nameEnd + 8)).toNat ≤ data.length then
        .ok (recordAt data name nameEnd,nameEnd + 10 + (u16 data (nameEnd + 8)).toNat)
      else .error .truncated := by
  by_cases hb : nameEnd + 10 ≤ data.length
  · by_cases hr : nameEnd + 10 + (u16 data (nameEnd + 8)).toNat ≤ data.length
    · simp [nsDnsParseRecord, h, hb, hr, Nat.not_lt.mpr hb, Nat.not_lt.mpr hr, recordAt]
    · simp [nsDnsParseRecord, h, hb, hr]
  · simp [nsDnsParseRecord, h, hb]

theorem parseQuestions_step_error {remaining i : ℕ} {e : ParseError} (h : nsDnsParseQuestion data offset = .error e) :
    parseQuestions data (remaining + 1) i offset = .error e := by
  simp only [parseQuestions, h, error_bind]

theorem parseQuestions_step {remaining i stop : ℕ} {q : DnsQuestion} (h : nsDnsParseQuestion data offset = .ok (q,stop)) :
    parseQuestions data (remaining + 1) i offset =
      (parseQuestions data remaining (i + 1) stop).map fun r => (if i < dnsMaxQuestions then q :: r.1 else r.1,r.2) := by
  simp only [parseQuestions, h, ok_bind]
  cases parseQuestions data remaining (i + 1) stop <;> rfl

theorem parseAnswers_step_error {remaining : ℕ} {e : ParseError} (h : nsDnsParseRecord data offset = .error e) :
    parseAnswers data (remaining + 1) offset = .error e := by
  simp only [parseAnswers, h, error_bind]

theorem parseAnswers_step {remaining stop : ℕ} {a : DnsRecord} (h : nsDnsParseRecord data offset = .ok (a,stop)) :
    parseAnswers data (remaining + 1) offset = (parseAnswers data remaining stop).map fun as => a :: as := by
  simp only [parseAnswers, h, ok_bind]
  cases parseAnswers data remaining stop <;> rfl

/-! ### What an accepted step has done -/

theorem nsDnsParseQuestion_ok {q : DnsQuestion} {stop : ℕ} (h : nsDnsParseQuestion data offset = .ok (q,stop)) :
    ∃ nameEnd, nsDnsDecodeName data offset (dnsMaxName + 1) = .ok (q.name,nameEnd) ∧ stop = nameEnd + 4 ∧
      stop ≤ data.length := by
  cases hn : nsDnsDecodeName data offset (dnsMaxName + 1) with
  | error e =>
    rw [nsDnsParseQuestion_of_error hn] at h
    cases h
  | ok r =>
    obtain ⟨name,nameEnd⟩ := r
    rw [nsDnsParseQuestion_of_name hn] at h
    split at h
    · obtain ⟨rfl,rfl⟩ := Prod.mk.inj (Except.ok.inj h)
      exact ⟨nameEnd,rfl,rfl,‹_›⟩
    · cases h

theorem nsDnsParseRecord_ok {a : DnsRecord} {stop : ℕ} (h : nsDnsParseRecord data offset = .ok (a,stop)) :
    ∃ nameEnd, nsDnsDecodeName data offset (dnsMaxName + 1) = .ok (a.name,nameEnd) ∧ a = recordAt data a.name nameEnd ∧
      stop = nameEnd + 10 + a.rdlength.toNat := by
  cases hn : nsDnsDecodeName data offset (dnsMaxName + 1) with
  | error e =>
    rw [nsDnsParseRecord_of_error hn] at h
    cases h
  | ok r =>
    obtain ⟨name,nameEnd⟩ := r
    rw [nsDnsParseRecord_of_name hn] at h
    split at h
    · obtain ⟨rfl,rfl⟩ := Prod.mk.inj (Except.ok.inj h)
      exact ⟨nameEnd,rfl,rfl,rfl⟩
    · cases h

theorem parseQuestions_ok {remaining i : ℕ} {r : List DnsQuestion × ℕ}
    (h : parseQuestions data (remaining + 1) i offset = .ok r) :
    ∃ q stop rest, nsDnsParseQuestion data offset = .ok (q,stop) ∧ parseQuestions data remaining (i + 1) stop = .ok rest ∧
      r = (if i < dnsMaxQuestions then q :: rest.1 else rest.1,rest.2) := by
  obtain ⟨⟨q,stop⟩,hq,hrest⟩ := bind_eq_ok.mp h
  obtain ⟨rest,hrest,hr⟩ := bind_eq_ok.mp hrest
  exact ⟨q,stop,rest,hq,hrest,(Except.ok.inj hr).symm⟩

theorem parseAnswers_ok {remaining : ℕ} {answers : List DnsRecord} (h : parseAnswers data (remaining + 1) offset = .ok answers) :
    ∃ a stop rest, nsDnsParseRecord data offset = .ok (a,stop) ∧ parseAnswers data remaining stop = .ok rest ∧
      answers = a :: rest := by
  obtain ⟨⟨a,stop⟩,ha,hrest⟩ := bind_eq_ok.mp h
  obtain ⟨rest,hrest,hr⟩ := bind_eq_ok.mp hrest
  exact ⟨a,stop,rest,ha,hrest,(Except.ok.inj hr).symm⟩

end Specs

/-- The message with these two sections under its header. -/
def messageAt (data : Bytes) (questions : List DnsQuestion) (answers : List DnsRecord) : DnsInfo where
  transactionId := u16 data 0
  flags := u16 data 2
  isResponse := u16 data 2 &&& 0x8000 ≠ 0
  questionCount := u16 data 4
  answerCount := u16 data 6
  authorityCount := u16 data 8
  additionalCount := u16 data 10
  questions := questions
  answers := answers

theorem nsParseDns_short {data : Bytes} (h : ¬12 ≤ data.length) : nsParseDns data = .error .truncated := by
  simp [nsParseDns, h]

theorem nsParseDns_eq {data : Bytes} (h : 12 ≤ data.length) :
    nsParseDns data = (do
      let (questions,offset) ← parseQuestions data (u16 data 4).toNat 0 12
      let answers ← parseAnswers data (min (u16 data 6).toNat dnsMaxAnswers) offset
      return messageAt data questions answers) := by
  simp only [nsParseDns, nsBoundsCheck_eq, Nat.zero_add, h, decide_true, Bool.not_true, Bool.false_eq_true, ↓reduceIte]
  rfl

/-- An accepted message, by its two loops. -/
theorem nsParseDns_ok_iff {data : Bytes} {info : DnsInfo} :
    nsParseDns data = .ok info ↔
      12 ≤ data.length ∧ ∃ questions offset answers,
        parseQuestions data (u16 data 4).toNat 0 12 = .ok (questions,offset) ∧
        parseAnswers data (min (u16 data 6).toNat dnsMaxAnswers) offset = .ok answers ∧
        info = messageAt data questions answers := by
  by_cases h : 12 ≤ data.length
  · rw [nsParseDns_eq h]
    constructor
    · intro he
      obtain ⟨⟨questions,offset⟩,hq,he⟩ := bind_eq_ok.mp he
      obtain ⟨answers,ha,he⟩ := bind_eq_ok.mp he
      exact ⟨h,questions,offset,answers,hq,ha,(Except.ok.inj he).symm⟩
    · rintro ⟨_,questions,offset,answers,hq,ha,rfl⟩
      rw [hq, ok_bind]
      dsimp only
      rw [ha]
      rfl
  · rw [nsParseDns_short h]
    constructor
    · intro he
      cases he
    · intro he
      exact absurd he.1 h

end Netscope
