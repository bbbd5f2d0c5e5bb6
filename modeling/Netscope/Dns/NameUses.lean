import Netscope.Dns.NameGrammar
import Netscope.Dns.MessageSpecs

/-! # One name, five uses

The decoder takes its length limit from the buffer of its caller. Four of the five
callers pass a name buffer; the rdata renderer passes the buffer of the rendered
text, which leaves room for the preference of a mail exchange in front of a name.
-/
namespace Netscope.NameUses
open ByteString Numerals DnsName

/-- The places of a message where a name is decoded. -/
inductive NameUse where
  | question
  | skippedQuestion
  | owner
  | nameRdata
  | exchange
deriving DecidableEq, Repr

/-- The size of the buffer each caller passes. -/
def NameUse.bufferSize : NameUse → ℕ
  | .question => dnsMaxName + 1
  | .skippedQuestion => dnsMaxName + 1
  | .owner => dnsMaxName + 1
  | .nameRdata => dnsMaxRdataText
  | .exchange => dnsMaxName + 1

/-- The text of the name at `o` in one use, when it is accepted there. -/
def decodeFor (use : NameUse) (data : Bytes) (o : ℕ) : Option Bytes :=
  (nsDnsDecodeName data o use.bufferSize).toOption.map Prod.fst

theorem NameUse.bufferSize_gt (use : NameUse) : 64 < use.bufferSize := by
  cases use <;> decide

theorem decodeFor_eq_some_iff {use : NameUse} {data : Bytes} {o : ℕ} {text : Bytes} :
    decodeFor use data o = some text ↔ ∃ labels pointers stop, NameChain data o labels pointers stop ∧
      pointers ≤ dnsMaxJumps ∧ (dottedText labels).length < use.bufferSize ∧ text = dottedText labels := by
  constructor
  · intro h
    unfold decodeFor at h
    cases hd : nsDnsDecodeName data o use.bufferSize with
    | error e => rw [hd] at h; cases h
    | ok r =>
      obtain ⟨text',stop⟩ := r
      rw [hd] at h
      obtain rfl : text' = text := Option.some.inj h
      obtain ⟨labels,pointers,hc,hj,hlen,htext⟩ := (nsDnsDecodeName_ok_iff use.bufferSize_gt text' stop).mp hd
      exact ⟨labels,pointers,stop,hc,hj,hlen,htext⟩
  · rintro ⟨labels,pointers,stop,hc,hj,hlen,rfl⟩
    rw [decodeFor, (nsDnsDecodeName_ok_iff use.bufferSize_gt _ _).mpr ⟨labels,pointers,hc,hj,hlen,rfl⟩]
    rfl

/-! ## The uses in the parser -/

section Callers
variable {data : Bytes} {o : ℕ}

theorem nsDnsParseQuestion_decodeFor {use : NameUse} (huse : use.bufferSize = dnsMaxName + 1) {q : DnsQuestion} {stop : ℕ}
    (h : nsDnsParseQuestion data o = .ok (q,stop)) : decodeFor use data o = some q.name := by
  obtain ⟨nameEnd,hname,-,-⟩ := nsDnsParseQuestion_ok h
  rw [decodeFor, huse, hname]
  rfl

theorem nsDnsParseRecord_decodeFor {a : DnsRecord} {stop : ℕ} (h : nsDnsParseRecord data o = .ok (a,stop)) :
    decodeFor .owner data o = some a.name := by
  obtain ⟨nameEnd,hname,-,-⟩ := nsDnsParseRecord_ok h
  rw [decodeFor, NameUse.bufferSize, hname]
  rfl

theorem nsDnsFormatNameRdata_eq_decodeFor : nsDnsFormatNameRdata data o dnsMaxRdataText = decodeFor .nameRdata data o := by
  rw [nsDnsFormatNameRdata, decodeFor, NameUse.bufferSize]
  cases nsDnsDecodeName data o dnsMaxRdataText <;> rfl

theorem length_cString_le (s : Bytes) : (cString s).length ≤ s.length := (List.takeWhile_sublist _).length_le

/-- The rendering of a mail exchange is whole: preference, space and name fit the text. -/
theorem nsDnsFormatMx_eq_decodeFor (k : ℕ) :
    nsDnsFormatMx data k dnsMaxRdataText =
      (decodeFor .exchange data (k + 2)).map fun text => decimal (u16 data k).toNat ++ [32] ++ cString text := by
  by_cases hb : k + 2 ≤ data.length
  · rw [nsDnsFormatMx, nsBoundsCheck_eq, decide_eq_true hb, decodeFor, NameUse.bufferSize]
    cases hd : nsDnsDecodeName data (k + 2) (dnsMaxName + 1) with
    | error e => rfl
    | ok r =>
      obtain ⟨name,stop⟩ := r
      obtain ⟨labels,pointers,-,-,hlen,rfl⟩ := (nsDnsDecodeName_ok_iff (by decide) name stop).mp hd
      have hpref : (decimal (u16 data k).toNat).length ≤ 5 :=
        numeral_length_le (by norm_num) (by norm_num) (lt_trans (u16 data k).toNat_lt (by norm_num))
      have hname := length_cString_le (dottedText labels)
      have hfit : (decimal (u16 data k).toNat ++ [32] ++ cString (dottedText labels)).length < dnsMaxRdataText := by
        rw [List.length_append, List.length_append, List.length_singleton]
        simp only [dnsMaxRdataText, dnsMaxName] at hlen ⊢
        omega
      exact congrArg some (snprintf_of_lt hfit)
  · have hnone : decodeFor .exchange data (k + 2) = none := by
      rw [Option.eq_none_iff_forall_ne_some]
      intro text h
      obtain ⟨labels,pointers,stop,hc,-⟩ := decodeFor_eq_some_iff.mp h
      have := hc.stop_bounds
      omega
    rw [hnone, nsDnsFormatMx, nsBoundsCheck_eq, decide_eq_false hb]
    rfl

end Callers

/-! ## Agreement -/

/-- The name at `o` is accepted by all uses or by none, with one text of at most 255
bytes, which is what the parsers store and what the two renderers print. -/
structure UsesAgree (data : Bytes) (o : ℕ) : Prop where
  same : ∀ use use', decodeFor use data o = decodeFor use' data o
  short : ∀ use text, decodeFor use data o = some text → text.length ≤ dnsMaxName
  question : ∀ q stop, nsDnsParseQuestion data o = .ok (q,stop) →
    decodeFor .question data o = some q.name ∧ decodeFor .skippedQuestion data o = some q.name
  owner : ∀ a stop, nsDnsParseRecord data o = .ok (a,stop) → decodeFor .owner data o = some a.name
  nameRdata : nsDnsFormatNameRdata data o dnsMaxRdataText = decodeFor .nameRdata data o
  exchange : ∀ k, k + 2 = o → nsDnsFormatMx data k dnsMaxRdataText =
    (decodeFor .exchange data o).map fun text => decimal (u16 data k).toNat ++ [32] ++ cString text

/-- The text of the name at `o` exceeds the name buffers but fits the rdata text. -/
def BetweenLimits (data : Bytes) (o : ℕ) : Prop :=
  ∃ labels pointers stop, NameChain data o labels pointers stop ∧ pointers ≤ dnsMaxJumps ∧
    dnsMaxName < (dottedText labels).length ∧ (dottedText labels).length < dnsMaxRdataText

theorem BetweenLimits.not_usesAgree {data : Bytes} {o : ℕ} (h : BetweenLimits data o) : ¬UsesAgree data o := by
  obtain ⟨labels,pointers,stop,hc,hj,hlong,hfit⟩ := h
  intro hagree
  have hsome : decodeFor .nameRdata data o = some (dottedText labels) :=
    decodeFor_eq_some_iff.mpr ⟨labels,pointers,stop,hc,hj,hfit,rfl⟩
  have hshort := hagree.short .nameRdata _ hsome
  omega

theorem bufferSize_bounds (use : NameUse) : dnsMaxName < use.bufferSize ∧ use.bufferSize ≤ dnsMaxRdataText := by
  cases use <;> decide

/-- Outside the gap between the two limits every use accepts the same names. -/
theorem decodeFor_mono {data : Bytes} {o : ℕ} (h : ¬BetweenLimits data o) {use : NameUse} (use' : NameUse) {text : Bytes}
    (hd : decodeFor use data o = some text) : decodeFor use' data o = some text ∧ text.length ≤ dnsMaxName := by
  obtain ⟨labels,pointers,stop,hc,hj,hlen,rfl⟩ := decodeFor_eq_some_iff.mp hd
  have hmax := (bufferSize_bounds use).2
  have hshort : (dottedText labels).length ≤ dnsMaxName := by
    by_contra hlong
    exact h ⟨labels,pointers,stop,hc,hj,by omega,by omega⟩
  have hmin := (bufferSize_bounds use').1
  exact ⟨decodeFor_eq_some_iff.mpr ⟨labels,pointers,stop,hc,hj,by omega,rfl⟩,hshort⟩

/-- The uses disagree exactly on the names whose text is longer than 255 bytes and
still fits the rdata text. -/
theorem usesAgree_iff (data : Bytes) (o : ℕ) : UsesAgree data o ↔ ¬BetweenLimits data o := by
  constructor
  · intro hagree hbetween
    exact hbetween.not_usesAgree hagree
  · intro h
    refine ⟨?_,?_,?_,?_,nsDnsFormatNameRdata_eq_decodeFor,?_⟩
    · intro use use'
      apply Option.ext
      intro text
      exact ⟨fun hd => (decodeFor_mono h use' hd).1,fun hd => (decodeFor_mono h use hd).1⟩
    · intro use text hd
      exact (decodeFor_mono h use hd).2
    · intro q stop hq
      exact ⟨nsDnsParseQuestion_decodeFor rfl hq,nsDnsParseQuestion_decodeFor rfl hq⟩
    · intro a stop ha
      exact nsDnsParseRecord_decodeFor ha
    · rintro k rfl
      exact nsDnsFormatMx_eq_decodeFor k

/-! ## A canonical name of 256 bytes -/

/-- A label of `n` letters, with its length byte. -/
def letters (n : ℕ) : Bytes := UInt8.ofNat n :: List.replicate n 97

/-- A response whose one answer is an alias for a name of 256 bytes. -/
def longAlias : Bytes :=
  [0,1,0x81,0x80,0,0,0,1,0,0,0,0] ++ [0,0,5,0,1,0,0,0,0,1,2] ++
    letters 63 ++ letters 63 ++ letters 63 ++ letters 62 ++ letters 1 ++ [0]

/-- The text that the answer of `longAlias` shows. -/
def longAliasText : Bytes :=
  [dot].intercalate [List.replicate 63 97,List.replicate 63 97,List.replicate 63 97,List.replicate 62 97,[97]]

/-- The parser shows 256 bytes of text for the alias; as a question name or as the
owner of a record the same bytes are malformed. -/
theorem longAlias_uses_disagree :
    (nsParseDns longAlias).toOption.map (fun info => info.answers.map DnsRecord.rdataText) = some [longAliasText] ∧
      longAliasText.length = 256 ∧ nsDnsParseQuestion longAlias 23 = .error .malformed ∧
      nsDnsParseRecord longAlias 23 = .error .malformed ∧ ¬UsesAgree longAlias 23 := by
  refine ⟨by decide +kernel,by decide +kernel,by decide +kernel,by decide +kernel,?_⟩
  intro hagree
  have hsame := hagree.same .question .nameRdata
  exact absurd hsame (by decide +kernel)

end Netscope.NameUses
