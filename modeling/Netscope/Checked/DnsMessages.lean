import Netscope.Checked.DnsRecords

/-! # The message parser never leaves its arrays

The counters of decoded questions and answers stay within the four and twelve
slots, and the slots below them hold what the functional parser returns.
-/
namespace Netscope.Checked
open ByteString PartialMemory

structure QuestionHolds (q : DnsQuestion) (slot : Question) : Prop where
  name : Holds (dnsMaxName + 1) q.name slot.name
  type : slot.type = q.type
  qclass : slot.qclass = q.qclass

structure RecordHolds (a : DnsRecord) (slot : Record) : Prop where
  name : Holds (dnsMaxName + 1) a.name slot.name
  type : slot.type = a.type
  rclass : slot.rclass = a.rclass
  ttl : slot.ttl = a.ttl
  rdlength : slot.rdlength = a.rdlength
  rdataText : Holds dnsMaxRdataText a.rdataText slot.rdataText

/-- The arrays keep their sizes. -/
structure SlotsFit (out : Info) : Prop where
  questions : out.questions.length = dnsMaxQuestions
  answers : out.answers.length = dnsMaxAnswers
  names : ∀ slot ∈ out.questions, slot.name.length = dnsMaxName + 1
  texts : ∀ slot ∈ out.answers, slot.rdataText.length = dnsMaxRdataText

/-- The structure that `ns_parse_dns` fills stands for the decoded message. -/
structure InfoHolds (info : DnsInfo) (out : Info) : Prop where
  transactionId : out.transactionId = info.transactionId
  flags : out.flags = info.flags
  isResponse : out.isResponse = info.isResponse
  questionCount : out.questionCount = info.questionCount
  answerCount : out.answerCount = info.answerCount
  authorityCount : out.authorityCount = info.authorityCount
  additionalCount : out.additionalCount = info.additionalCount
  questions : List.Forall₂ QuestionHolds info.questions (out.questions.take out.decodedQuestionCount)
  answers : List.Forall₂ RecordHolds info.answers (out.answers.take out.decodedAnswerCount)
  decodedQuestionCount : out.decodedQuestionCount = info.decodedQuestionCount
  decodedAnswerCount : out.decodedAnswerCount = info.decodedAnswerCount

theorem take_succ_set {α : Type} {xs : List α} {n : ℕ} (h : n < xs.length) (a : α) :
    (xs.set n a).take (n + 1) = xs.take n ++ [a] := by
  rw [List.take_add_one, List.take_set_of_le (Nat.le_refl n), List.getElem?_set_self h]
  rfl

/-- Storing one more element keeps the stored ones in step with their slots. -/
theorem forall₂_store {α β : Type} {R : α → β → Prop} {done : List α} {xs : List β} {n : ℕ} {a : α} {slot : β}
    (hn : n < xs.length) (hdone : List.Forall₂ R done (xs.take n)) (ha : R a slot) :
    List.Forall₂ R (done ++ [a]) ((xs.set n slot).take (n + 1)) := by
  rw [take_succ_set hn]
  exact List.rel_append hdone (.cons ha .nil)

theorem SlotsFit.setQuestion {out : Info} (h : SlotsFit out) {slot : Question} (hslot : slot.name.length = dnsMaxName + 1)
    (k count : ℕ) : SlotsFit { out with questions := out.questions.set k slot, decodedQuestionCount := count } where
  questions := by simpa using h.questions
  answers := h.answers
  names := by
    intro s hs
    rcases List.mem_or_eq_of_mem_set hs with hs | rfl
    · exact h.names s hs
    · exact hslot
  texts := h.texts

theorem SlotsFit.setAnswer {out : Info} (h : SlotsFit out) {slot : Record} (hslot : slot.rdataText.length = dnsMaxRdataText)
    (k count : ℕ) : SlotsFit { out with answers := out.answers.set k slot, decodedAnswerCount := count } where
  questions := h.questions
  answers := by simpa using h.answers
  names := h.names
  texts := by
    intro s hs
    rcases List.mem_or_eq_of_mem_set hs with hs | rfl
    · exact h.texts s hs
    · exact hslot

theorem element_ok {α : Type} {xs : List α} {n : ℕ} (h : n < xs.length) : element xs n = .ok xs[n] := by
  simp [element, h]

section Parsers
variable {data : Bytes} (hl : data.length < 2 ^ 64)
include hl

theorem nsDnsParseQuestion_agrees (offset : ℕ) {out : Option Question}
    (hout : ∀ slot, out = some slot → slot.name.length = dnsMaxName + 1) :
    ∃ r, nsDnsParseQuestion data data.length offset out = .ok r ∧ r.2.1.isSome = out.isSome ∧
      (∀ slot, r.2.1 = some slot → slot.name.length = dnsMaxName + 1) ∧
      match Netscope.nsDnsParseQuestion data offset with
      | .ok (q,stop) => r.1 = .ok ∧ r.2.2 = stop ∧ ∀ slot, r.2.1 = some slot → QuestionHolds q slot
      | .error e => r.1 = statusOf e := by
  have hbuf : (nameBuffer out).length = dnsMaxName + 1 := by
    cases out with
    | none => exact fresh_length _
    | some slot => exact hout slot rfl
  obtain ⟨⟨status,name,stop⟩,he,hlen,ha⟩ := nsDnsDecodeName_agrees hl offset
    (show dnsMaxName + 1 ≤ 2 ^ 32 by norm_num) (by norm_num) hbuf
  have hname : ∀ slot, out.map (fun q => { q with name := name }) = some slot → slot.name.length = dnsMaxName + 1 := by
    intro slot h
    obtain ⟨q,_,rfl⟩ := Option.map_eq_some_iff.mp h
    exact hlen
  unfold nsDnsParseQuestion Netscope.nsDnsParseQuestion
  simp only [he, ok_bind]
  cases hm : Netscope.nsDnsDecodeName data offset (dnsMaxName + 1) with
  | error e =>
    rw [hm] at ha
    rw [ite_of_statusOf ha]
    exact ⟨_,rfl,by simp,hname,ha⟩
  | ok m =>
    rw [hm] at ha
    obtain ⟨rfl,rfl,hrest⟩ := ha
    simp only [ne_eq, not_true_eq_false, ↓reduceIte, use_some, ok_bind, nsBoundsCheck_eq, Netscope.nsBoundsCheck_eq]
    by_cases hb : m.2 + 4 ≤ data.length
    · simp only [hb, decide_true, Bool.not_true, Bool.false_eq_true, ↓reduceIte,
        ignoring_u16 hl (show m.2 + 2 ≤ data.length by omega), sizeAdd_ok (show m.2 + 2 < 2 ^ 64 by omega),
        ignoring_u16 hl (show m.2 + 2 + 2 ≤ data.length by omega), sizeAdd_ok (show m.2 + 4 < 2 ^ 64 by omega), ok_bind]
      refine ⟨_,rfl,by simp,?_,rfl,rfl,?_⟩
      · intro slot h
        obtain ⟨q,hq,rfl⟩ := Option.map_eq_some_iff.mp h
        exact hname q hq
      · intro slot h
        simp only [Option.map_map, Option.map_eq_some_iff] at h
        obtain ⟨q,_,rfl⟩ := h
        exact ⟨⟨hlen,hrest⟩,rfl,rfl⟩
    · simp only [hb, decide_false, Bool.not_false, ↓reduceIte]
      exact ⟨_,rfl,by simp,hname,rfl⟩

theorem nsDnsParseRecord_agrees (offset : ℕ) {out : Record} (hout : out.rdataText.length = dnsMaxRdataText) :
    ∃ r, nsDnsParseRecord data data.length offset out = .ok r ∧ r.2.1.rdataText.length = dnsMaxRdataText ∧
      match Netscope.nsDnsParseRecord data offset with
      | .ok (a,stop) => r.1 = .ok ∧ r.2.2 = stop ∧ RecordHolds a r.2.1
      | .error e => r.1 = statusOf e := by
  obtain ⟨⟨status,name,stop⟩,he,hlen,ha⟩ := nsDnsDecodeName_agrees hl offset
    (show dnsMaxName + 1 ≤ 2 ^ 32 by norm_num) (by norm_num) (fresh_length (dnsMaxName + 1))
  unfold nsDnsParseRecord Netscope.nsDnsParseRecord
  simp only [he, ok_bind]
  cases hm : Netscope.nsDnsDecodeName data offset (dnsMaxName + 1) with
  | error e =>
    rw [hm] at ha
    rw [ite_of_statusOf ha]
    exact ⟨_,rfl,hout,ha⟩
  | ok m =>
    rw [hm] at ha
    obtain ⟨rfl,rfl,hrest⟩ := ha
    simp only [ne_eq, not_true_eq_false, ↓reduceIte, use_some, ok_bind, nsBoundsCheck_eq, Netscope.nsBoundsCheck_eq]
    by_cases hb : m.2 + 10 ≤ data.length
    · simp only [hb, decide_true, Bool.not_true, Bool.false_eq_true, ↓reduceIte,
        ignoring_u16 hl (show m.2 + 2 ≤ data.length by omega), sizeAdd_ok (show m.2 + 2 < 2 ^ 64 by omega),
        ignoring_u16 hl (show m.2 + 2 + 2 ≤ data.length by omega), sizeAdd_ok (show m.2 + 4 < 2 ^ 64 by omega),
        ignoring_u32 hl (show m.2 + 4 + 4 ≤ data.length by omega), sizeAdd_ok (show m.2 + 8 < 2 ^ 64 by omega),
        ignoring_u16 hl (show m.2 + 8 + 2 ≤ data.length by omega), sizeAdd_ok (show m.2 + 10 < 2 ^ 64 by omega), ok_bind]
      by_cases hr : m.2 + 10 + (u16 data (m.2 + 8)).toNat ≤ data.length
      · obtain ⟨text,het,htext⟩ := @nsDnsFormatRdata_agrees data hl (m.2 + 10) dnsMaxRdataText (by norm_num) (by norm_num)
          out.rdataText hout (u16 data (m.2 + 8)) (u16 data m.2)
        simp only [hr, decide_true, Bool.not_true, Bool.false_eq_true, ↓reduceIte, het, ok_bind,
          sizeAdd_ok (show m.2 + 10 + (u16 data (m.2 + 8)).toNat < 2 ^ 64 by omega)]
        exact ⟨_,rfl,htext.1,rfl,rfl,⟨hlen,hrest⟩,rfl,rfl,rfl,rfl,htext⟩
      · simp only [hr, decide_false, Bool.not_false, ↓reduceIte]
        exact ⟨_,rfl,hout,rfl⟩
    · simp only [hb, decide_false, Bool.not_false, ↓reduceIte]
      exact ⟨_,rfl,hout,rfl⟩

/-- The question loop from question `i` on, when the questions `done` are stored. -/
theorem parseQuestions_agrees {remaining i offset : ℕ} {out : Info} {done : List DnsQuestion} (hfit : SlotsFit out)
    (hcount : out.decodedQuestionCount = min i dnsMaxQuestions)
    (hdone : List.Forall₂ QuestionHolds done (out.questions.take out.decodedQuestionCount)) :
    ∃ r, parseQuestions data data.length remaining i offset out = .ok r ∧
      match Netscope.parseQuestions data remaining i offset with
      | .ok (qs,stop) => r.1 = .ok ∧ r.2.2 = stop ∧ SlotsFit r.2.1 ∧
          r.2.1.decodedQuestionCount = out.decodedQuestionCount + qs.length ∧
          List.Forall₂ QuestionHolds (done ++ qs) (r.2.1.questions.take r.2.1.decodedQuestionCount) ∧
          r.2.1 = { out with questions := r.2.1.questions, decodedQuestionCount := r.2.1.decodedQuestionCount }
      | .error e => r.1 = statusOf e := by
  induction remaining generalizing i offset out done with
  | zero => exact ⟨_,rfl,rfl,rfl,hfit,rfl,by simpa using hdone,rfl⟩
  | succ remaining ih =>
    rw [parseQuestions, Netscope.parseQuestions]
    by_cases hi : i < dnsMaxQuestions
    · have hk : out.decodedQuestionCount < out.questions.length := by
        rw [hfit.questions, hcount]
        omega
      obtain ⟨⟨status,slot,stop⟩,he,hsome,hslot,ha⟩ := @nsDnsParseQuestion_agrees data hl offset
        (some out.questions[out.decodedQuestionCount]) (by
          intro slot h
          obtain rfl := Option.some.inj h
          exact hfit.names _ (List.getElem_mem hk))
      obtain ⟨slot,rfl⟩ := Option.isSome_iff_exists.mp hsome
      simp only [hi, ↓reduceIte, element_ok hk, ok_bind, he, use_some]
      cases hm : Netscope.nsDnsParseQuestion data offset with
      | error e =>
        rw [hm] at ha
        rw [ite_of_statusOf ha]
        exact ⟨_,rfl,ha⟩
      | ok m =>
        obtain ⟨q,stop'⟩ := m
        rw [hm] at ha
        obtain ⟨rfl,rfl,hq⟩ := ha
        have hq := hq slot rfl
        have hsize : out.decodedQuestionCount + 1 < 2 ^ 64 := (Nat.succ_le_of_lt hk).trans_lt (by rw [hfit.questions]; norm_num)
        simp only [ne_eq, not_true_eq_false, ↓reduceIte, sizeAdd_ok hsize, ok_bind]
        have hnext := @ih (i + 1) stop { out with
            questions := out.questions.set out.decodedQuestionCount slot
            decodedQuestionCount := out.decodedQuestionCount + 1 } (done ++ [q])
          (hfit.setQuestion (hslot slot rfl) _ _) (by simp only [hcount]; omega) (forall₂_store hk hdone hq)
        obtain ⟨r,he',hr⟩ := hnext
        refine ⟨r,he',?_⟩
        cases hms : Netscope.parseQuestions data remaining (i + 1) stop with
        | error e =>
          rw [hms] at hr
          exact hr
        | ok ms =>
          rw [hms] at hr
          obtain ⟨h1,h2,h3,h4,h5,h6⟩ := hr
          refine ⟨h1,h2,h3,?_,by simpa [hi] using h5,h6⟩
          rw [h4]
          simp only [List.length_cons]
          omega
    · obtain ⟨⟨status,slot,stop⟩,he,_,_,ha⟩ := @nsDnsParseQuestion_agrees data hl offset none (by simp)
      simp only [hi, ↓reduceIte, ok_bind, he]
      cases hm : Netscope.nsDnsParseQuestion data offset with
      | error e =>
        rw [hm] at ha
        rw [ite_of_statusOf ha]
        exact ⟨_,rfl,ha⟩
      | ok m =>
        obtain ⟨q,stop'⟩ := m
        rw [hm] at ha
        obtain ⟨rfl,rfl,_⟩ := ha
        simp only [ne_eq, not_true_eq_false, ↓reduceIte, ok_bind]
        obtain ⟨r,he',hr⟩ := @ih (i + 1) stop out done hfit (by rw [hcount]; omega) hdone
        refine ⟨r,he',?_⟩
        cases hms : Netscope.parseQuestions data remaining (i + 1) stop with
        | error e =>
          rw [hms] at hr
          exact hr
        | ok ms =>
          rw [hms] at hr
          simpa [hi] using hr

/-- The answer loop, when the answers `done` are stored. -/
theorem parseAnswers_agrees {remaining offset : ℕ} {out : Info} {done : List DnsRecord} (hfit : SlotsFit out)
    (hcount : out.decodedAnswerCount + remaining ≤ dnsMaxAnswers)
    (hdone : List.Forall₂ RecordHolds done (out.answers.take out.decodedAnswerCount)) :
    ∃ r, parseAnswers data data.length remaining offset out = .ok r ∧
      match Netscope.parseAnswers data remaining offset with
      | .ok as => r.1 = .ok ∧ r.2.decodedAnswerCount = out.decodedAnswerCount + as.length ∧
          List.Forall₂ RecordHolds (done ++ as) (r.2.answers.take r.2.decodedAnswerCount) ∧
          r.2 = { out with answers := r.2.answers, decodedAnswerCount := r.2.decodedAnswerCount }
      | .error e => r.1 = statusOf e := by
  induction remaining generalizing offset out done with
  | zero => exact ⟨_,rfl,rfl,rfl,by simpa using hdone,rfl⟩
  | succ remaining ih =>
    rw [parseAnswers, Netscope.parseAnswers]
    have hk : out.decodedAnswerCount < out.answers.length := by
      rw [hfit.answers]
      omega
    obtain ⟨⟨status,slot,stop⟩,he,hslot,ha⟩ := @nsDnsParseRecord_agrees data hl offset
      out.answers[out.decodedAnswerCount] (hfit.texts _ (List.getElem_mem hk))
    simp only [element_ok hk, ok_bind, he]
    cases hm : Netscope.nsDnsParseRecord data offset with
    | error e =>
      rw [hm] at ha
      rw [ite_of_statusOf ha]
      exact ⟨_,rfl,ha⟩
    | ok m =>
      obtain ⟨a,stop'⟩ := m
      rw [hm] at ha
      obtain ⟨rfl,rfl,hrec⟩ := ha
      have hsize : out.decodedAnswerCount + 1 < 2 ^ 64 := (Nat.succ_le_of_lt hk).trans_lt (by rw [hfit.answers]; norm_num)
      simp only [ne_eq, not_true_eq_false, ↓reduceIte, sizeAdd_ok hsize, ok_bind]
      obtain ⟨r,he',hr⟩ := @ih stop { out with
          answers := out.answers.set out.decodedAnswerCount slot
          decodedAnswerCount := out.decodedAnswerCount + 1 } (done ++ [a])
        (hfit.setAnswer hslot _ _) (by simp only; omega) (forall₂_store hk hdone hrec)
      refine ⟨r,he',?_⟩
      cases hms : Netscope.parseAnswers data remaining stop with
      | error e =>
        rw [hms] at hr
        exact hr
      | ok ms =>
        rw [hms] at hr
        obtain ⟨h1,h2,h3,h4⟩ := hr
        refine ⟨h1,?_,by simpa using h3,h4⟩
        rw [h2]
        simp only [List.length_cons]
        omega

omit hl in
theorem zero_slotsFit : SlotsFit Info.zero where
  questions := rfl
  answers := rfl
  names := by
    intro slot hs
    rw [List.eq_of_mem_replicate hs]
    exact zeroed_length _
  texts := by
    intro slot hs
    rw [List.eq_of_mem_replicate hs]
    exact zeroed_length _

/-- The message parser returns on every input, and an accepted message is the one that
the functional parser returns. -/
theorem nsParseDns_agrees (out : Info) :
    ∃ r, nsParseDns data data.length out = .ok r ∧
      match Netscope.nsParseDns data with
      | .ok info => r.1 = .ok ∧ InfoHolds info r.2
      | .error e => r.1 = statusOf e := by
  unfold nsParseDns Netscope.nsParseDns
  by_cases h : 12 ≤ data.length
  · simp (disch := omega) only [nsBoundsCheck_eq, Netscope.nsBoundsCheck_eq, ignoring_u16 hl, ok_bind, Nat.zero_add, h,
      decide_true, Bool.not_true, Bool.false_eq_true, ↓reduceIte]
    obtain ⟨⟨status,out1,stop⟩,he,ha⟩ := @parseQuestions_agrees data hl (u16 data 4).toNat 0 12
      { Info.zero with
        transactionId := u16 data 0, flags := u16 data 2, isResponse := u16 data 2 &&& 0x8000 ≠ 0
        questionCount := u16 data 4, answerCount := u16 data 6, authorityCount := u16 data 8
        additionalCount := u16 data 10 } []
      ⟨zero_slotsFit.questions,zero_slotsFit.answers,zero_slotsFit.names,zero_slotsFit.texts⟩ rfl (by simp [Info.zero])
    simp only [he, ok_bind]
    cases hm : Netscope.parseQuestions data (u16 data 4).toNat 0 12 with
    | error e =>
      rw [hm] at ha
      rw [ite_of_statusOf ha]
      exact ⟨_,rfl,ha⟩
    | ok m =>
      obtain ⟨qs,stop'⟩ := m
      rw [hm] at ha
      obtain ⟨rfl,rfl,hfit,hqcount,hqs,hout1⟩ := ha
      simp only [ne_eq, not_true_eq_false, ↓reduceIte, ok_bind]
      dsimp only at hfit hqcount hqs hout1
      obtain ⟨⟨status',out2⟩,he',ha'⟩ := @parseAnswers_agrees data hl (min (u16 data 6).toNat dnsMaxAnswers) stop out1 []
        hfit (by rw [hout1]; simp [Info.zero]) (by rw [hout1]; simp [Info.zero])
      refine ⟨_,he',?_⟩
      cases hms : Netscope.parseAnswers data (min (u16 data 6).toNat dnsMaxAnswers) stop with
      | error e =>
        rw [hms] at ha'
        exact ha'
      | ok as =>
        rw [hms] at ha'
        obtain ⟨rfl,hacount,has,hout2⟩ := ha'
        dsimp only at hacount has hout2
        refine ⟨rfl,?_⟩
        have hq2 : out2.questions = out1.questions := by rw [hout2]
        have hc2 : out2.decodedQuestionCount = out1.decodedQuestionCount := by rw [hout2]
        have hzero : out1.decodedAnswerCount = 0 := by rw [hout1]; rfl
        constructor
        case questions =>
          rw [hq2, hc2]
          simpa using hqs
        case answers => simpa using has
        case decodedQuestionCount => rw [hc2, hqcount]; exact Nat.zero_add _
        case decodedAnswerCount => rw [hacount, hzero]; exact Nat.zero_add _
        all_goals rw [hout2, hout1]
  · exact ⟨_,by simp [h]; rfl,by simp [h, statusOf]⟩

end Parsers

end Netscope.Checked
