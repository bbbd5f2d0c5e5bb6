import Netscope.Checked.DnsNames

/-! # The rdata renderers never leave their buffers

Every renderer leaves its buffer at its size and, when it succeeds, holding the
text of the functional renderer and a NUL.
-/
namespace Netscope.Checked
open ByteString PartialMemory Numerals Netscope.DnsName Netscope.AddressText

/-- A `char` array of a fixed size that holds a C string. -/
def Holds (size : ℕ) (text : Bytes) (buf : Cells) : Prop :=
  buf.length = size ∧ ∃ rest, buf = holding (text ++ [0]) rest

theorem printInto_holding (text s : Bytes) {rest : Cells} {size : ℕ} (h0 : 0 < size) (hsize : size ≤ rest.length) :
    ∃ rest', printInto (holding text rest) text.length size s = .ok (holding (text ++ s.take (size - 1)) rest') ∧
      text.length + rest.length = (text ++ s.take (size - 1)).length + rest'.length ∧
      ∃ rest'', rest' = some 0 :: rest'' := by
  have hle : (s.take (size - 1) ++ [0]).length ≤ rest.length := by simp; omega
  refine ⟨some 0 :: rest.drop (s.take (size - 1) ++ [0]).length,?_,?_,_,rfl⟩
  · rw [printInto, if_neg (by omega), storeRange_holding text _ hle]
    simp [holding]
  · simp only [List.length_append, List.length_cons, List.length_nil, List.length_drop, List.length_take] at hle ⊢
    omega

theorem printInto_holds {buf : Cells} {size : ℕ} (h0 : 0 < size) (hb : buf.length = size) (s : Bytes) :
    ∃ buf', printInto buf 0 size s = .ok buf' ∧ Holds size (snprintf size s) buf' := by
  obtain ⟨rest',he,hlen,rest'',rfl⟩ := printInto_holding [] s h0 hb.ge
  refine ⟨_,he,?_,rest'',by simp [holding, snprintf]⟩
  simp only [List.nil_append, List.length_nil, Nat.zero_add, holding_length] at hlen ⊢
  omega

theorem loadString_holds {size : ℕ} {text : Bytes} {buf : Cells} (h : Holds size text buf) :
    loadString buf = .ok (cString text) := by
  obtain ⟨_,rest,rfl⟩ := h
  exact loadString_holding text rest

/-! ## Addresses -/

theorem loadGroups_ok {data : Bytes} (h : 16 ≤ data.length) :
    loadGroups data = .ok (ipv6Groups (slice data 0 16)).toList := by
  rw [loadGroups, mapM_ok (g := fun i => (u8 data (i * 2)).toUInt16 <<< 8 ||| (u8 data (i * 2 + 1)).toUInt16)]
  · refine congrArg Except.ok (List.ext_getElem ?_ ?_)
    · simp only [List.length_map, List.length_range, Vector.length_toList]
    · intro i h1 h2
      simp only [List.getElem_map, List.getElem_range, Vector.getElem_toList, ipv6Groups, slice, Vector.getElem_ofFn,
        Nat.zero_add, Nat.mul_comm i 2]
  · intro i hi
    have hi := List.mem_range.mp hi
    simp only [load_ok (show i * 2 < data.length by omega), load_ok (show i * 2 + 1 < data.length by omega), ok_bind,
      pure_eq_ok]

/-- The run that the search finds lies inside the eight groups. -/
def RunInside (bestStart bestLen : ℤ) : Prop :=
  bestStart = -1 ∨ ∃ start len : ℕ, bestStart = start ∧ bestLen = len ∧ 2 ≤ len ∧ start + len ≤ 8

theorem bestZeroRun_inside {isZero : List Bool} (h : isZero.length = 8) :
    RunInside (bestZeroRun isZero).1 (bestZeroRun isZero).2 := by
  rcases bestZeroRun_cases isZero with ⟨hr,_⟩ | ⟨start,len,hr,hlen,hbest⟩
  · left
    rw [hr]
  · right
    have hle := hbest.run.end_le (by omega)
    rw [h] at hle
    exact ⟨start,len,by rw [hr],by rw [hr],hlen,hle⟩

theorem emitSeparator_ok {bestStart bestLen : ℤ} {i : ℕ} {text : Bytes} {rest : Cells} (h0 : 0 < rest.length)
    (hl : text.length + 1 < 2 ^ 64) :
    ∃ rest', emitSeparator bestStart bestLen i (holding text rest) text.length =
        .ok (holding (text ++ if i ≠ 0 ∧ (i : ℤ) ≠ bestStart + bestLen then [colon] else []) rest',
          (text ++ if i ≠ 0 ∧ (i : ℤ) ≠ bestStart + bestLen then [colon] else []).length) ∧
      text.length + rest.length =
        (text ++ if i ≠ 0 ∧ (i : ℤ) ≠ bestStart + bestLen then [colon] else []).length + rest'.length := by
  unfold emitSeparator
  by_cases h : i ≠ 0 ∧ (i : ℤ) ≠ bestStart + bestLen
  · refine ⟨rest.drop 1,?_,by simp [h]; omega⟩
    simp only [h, ne_eq, not_false_eq_true, and_self, ↓reduceIte, store_holding text colon h0, ok_bind, sizeAdd_ok hl,
      pure_eq_ok, List.length_append, List.length_singleton]
  · refine ⟨rest,?_,by simp [h]⟩
    simp only [h, ↓reduceIte, List.append_nil, pure_eq_ok]

/-- The emission loop writes at most five bytes for each group it passes. -/
theorem emitGroups_agrees (groups : Vector UInt16 8) {bestStart bestLen : ℤ} (hrun : RunInside bestStart bestLen)
    {fuel i : ℕ} (hf : 8 ≤ i + fuel) (hi : i ≤ 8) {text : Bytes} {rest : Cells} (ht : text.length ≤ 5 * i)
    (hrest : text.length + rest.length = 46) :
    ∃ rest', emitGroups groups.toList bestStart bestLen fuel i (holding text rest) text.length =
        .ok (holding (text ++ Netscope.emitGroups groups bestStart bestLen fuel i) rest',
          (text ++ Netscope.emitGroups groups bestStart bestLen fuel i).length) ∧
      (text ++ Netscope.emitGroups groups bestStart bestLen fuel i).length ≤ 40 ∧
      (text ++ Netscope.emitGroups groups bestStart bestLen fuel i).length + rest'.length = 46 := by
  induction fuel generalizing i text rest with
  | zero =>
    refine ⟨rest,?_,?_,?_⟩
    · simp [emitGroups, Netscope.emitGroups, show ¬i < 8 by omega]
    · simp only [Netscope.emitGroups, List.append_nil]
      omega
    · simpa [Netscope.emitGroups] using hrest
  | succ fuel ih =>
    rw [emitGroups, Netscope.emitGroups]
    by_cases h8 : i < 8
    · by_cases hs : (i : ℤ) = bestStart
      · obtain ⟨start,len,hstart,rfl,hlen,hle⟩ := hrun.resolve_left (by omega)
        have h1 := store_holding text colon (show 0 < rest.length by omega)
        have h2 := store_holding (text ++ [colon]) colon (show 0 < (rest.drop 1).length by simp; omega)
        simp only [List.length_append, List.length_singleton] at h2
        simp only [h8, hs, ↓reduceIte, ↓reduceDIte, h1, ok_bind, sizeAdd_ok (show text.length + 1 < 2 ^ 64 by omega), h2,
          sizeAdd_ok (show text.length + 1 + 1 < 2 ^ 64 by omega), Int.toNat_natCast]
        have hi := @ih (i + len) (by omega) (by omega) (text ++ [colon] ++ [colon]) ((rest.drop 1).drop 1)
          (by simp; omega) (by simp; omega)
        simpa [hs] using hi
      · obtain ⟨rest1,he1,hlen1⟩ := @emitSeparator_ok bestStart bestLen i text rest (by omega) (by omega)
        generalize hsep : (text ++ if i ≠ 0 ∧ (i : ℤ) ≠ bestStart + bestLen then [colon] else []) = text1 at he1 hlen1
        have hsep1 : text1.length ≤ text.length + 1 := by
          rw [← hsep]
          split <;> simp
        have hg : (hex groups[i].toNat).length ≤ 4 := numeral_length_le (by norm_num) (by norm_num) groups[i].toNat_lt
        have hel : element groups.toList i = .ok groups[i] := by simp [element, h8]
        obtain ⟨rest2,he2,hlen2,_⟩ := @printInto_holding text1 (hex groups[i].toNat) rest1 (46 - text1.length) (by omega)
          (by omega)
        have htake : (hex groups[i].toNat).take (46 - text1.length - 1) = hex groups[i].toNat :=
          List.take_of_length_le (by omega)
        rw [htake] at he2 hlen2
        simp only [h8, hs, ↓reduceIte, ↓reduceDIte, he1, ok_bind, hel, sizeSub_ok (show text1.length ≤ 46 by omega), he2,
          sizeAdd_ok (show text1.length + (hex groups[i].toNat).length < 2 ^ 64 by omega)]
        have hi := @ih (i + 1) (by omega) (by omega) (text1 ++ hex groups[i].toNat) rest2 (by simp; omega) (by omega)
        rw [← List.append_assoc, ← List.append_assoc, hsep, ← List.length_append]
        exact hi
    · refine ⟨rest,?_,?_,?_⟩
      · simp [h8]
      · simp only [h8, ↓reduceDIte, List.append_nil]
        omega
      · simpa [h8] using hrest

theorem emitFallback_ok {text : Bytes} {rest : Cells} (hrest : text.length + rest.length = 46) :
    ∃ rest', emitFallback (holding text rest) text.length =
        .ok (holding (if text.length = 0 then [colon,colon] else text) rest',
          (if text.length = 0 then [colon,colon] else text).length) ∧
      (if text.length = 0 then [colon,colon] else text).length + rest'.length = 46 := by
  unfold emitFallback
  by_cases h : text.length = 0
  · obtain rfl : text = [] := List.length_eq_zero_iff.mp h
    have h1 := store_holding [] colon (show 0 < rest.length by simp at hrest; omega)
    have h2 := store_holding ([] ++ [colon]) colon (show 0 < (rest.drop 1).length by simp at hrest ⊢; omega)
    refine ⟨(rest.drop 1).drop 1,?_,by simp at hrest ⊢; omega⟩
    simp only [List.length_nil, ↓reduceIte, List.nil_append, List.length_singleton] at h1 h2 ⊢
    rw [h1, ok_bind, sizeAdd_ok (by norm_num), ok_bind, Nat.zero_add, h2, ok_bind, sizeAdd_ok (by norm_num)]
    rfl
  · exact ⟨rest,by simp [h],by simpa [h] using hrest⟩

theorem nsFormatIpv6_agrees {data : Bytes} (h : 16 ≤ data.length) {out : Cells} {outLen : ℕ} (h0 : 0 < outLen)
    (hlen : out.length = outLen) :
    ∃ out', nsFormatIpv6 data out outLen = .ok out' ∧
      Holds outLen (Netscope.nsFormatIpv6 (slice data 0 16) outLen) out' := by
  have hz : ((ipv6Groups (slice data 0 16)).toList.map (· == 0)).length = 8 := by simp
  obtain ⟨rest1,he1,hle1,hlen1⟩ := @emitGroups_agrees (ipv6Groups (slice data 0 16)) _ _ (bestZeroRun_inside hz) 8 0
    (by norm_num) (by norm_num) [] (fresh 46) (by simp) (by simp)
  obtain ⟨rest2,he2,hlen2⟩ := emitFallback_ok hlen1
  simp only [List.nil_append, holding_nil, List.length_nil] at he1 he2 hle1 hlen2
  have htext : (if (Netscope.emitGroups (ipv6Groups (slice data 0 16))
      (bestZeroRun ((ipv6Groups (slice data 0 16)).toList.map (· == 0))).1
      (bestZeroRun ((ipv6Groups (slice data 0 16)).toList.map (· == 0))).2 8 0).length = 0 then [colon,colon]
      else Netscope.emitGroups (ipv6Groups (slice data 0 16))
      (bestZeroRun ((ipv6Groups (slice data 0 16)).toList.map (· == 0))).1
      (bestZeroRun ((ipv6Groups (slice data 0 16)).toList.map (· == 0))).2 8 0) = ipv6Text (slice data 0 16) := rfl
  rw [htext] at he2 hlen2
  have hbound := ipv6Text_length_le (slice data 0 16)
  have hs := store_holding (ipv6Text (slice data 0 16)) 0 (show 0 < rest2.length by omega)
  rw [nsFormatIpv6, loadGroups_ok h]
  simp only [ok_bind, he1, he2, hs, loadString_holding]
  have hc := cString_of_printable (printable_ipv6Text (slice data 0 16))
  rw [cString] at hc
  rw [hc]
  exact printInto_holds h0 hlen _

/-! ## Rdata -/

/-- What a renderer leaves behind, given the outcome of its model. -/
def RenderAgrees (outLen : ℕ) (model : Option Bytes) (r : Bool × Cells) : Prop :=
  r.2.length = outLen ∧
  match model with
  | some text => r.1 = true ∧ Holds outLen text r.2
  | none => r.1 = false

/-- As much of a segment is copied as fits before the NUL. -/
theorem segmentCopy_ok {outLen outPos n : ℕ} (hfit : outPos < outLen) (hwrap : outPos + n < 2 ^ 64) :
    ∃ copy, segmentCopy outLen outPos n = .ok copy ∧
      (if outPos + n ≥ outLen then outLen - outPos - 1 else n) = copy ∧ copy ≤ n ∧ outPos + copy < outLen := by
  refine ⟨_,?_,rfl,?_,?_⟩
  · rw [segmentCopy, sizeAdd_ok hwrap, ok_bind]
    split
    · rw [sizeSub_ok (by omega), ok_bind, sizeSub_ok (by omega)]
    · rfl
  · split <;> omega
  · split <;> omega

section Renderers
variable {data : Bytes} (hl : data.length < 2 ^ 64) {rdataOffset outLen : ℕ} (hout : outLen ≤ 2 ^ 32) (h2 : 2 ≤ outLen)
  {out : Cells} (hlen : out.length = outLen)
include hl hout h2 hlen

omit hl hout in
theorem nsDnsFormatA_agrees (rdlength : UInt16) :
    ∃ r, nsDnsFormatA data data.length rdataOffset rdlength out outLen = .ok r ∧
      RenderAgrees outLen (Netscope.nsDnsFormatA data rdataOffset rdlength outLen) r := by
  unfold nsDnsFormatA Netscope.nsDnsFormatA
  by_cases h4 : rdlength = 4
  · by_cases hb : rdataOffset + 4 ≤ data.length
    · obtain ⟨out',he,hout'⟩ := printInto_holds (show 0 < outLen by omega) hlen (ipv4Text (slice data rdataOffset 4))
      refine ⟨(true,out'),?_,hout'.1,?_⟩
      · simp [h4, hb, advance_ok (show rdataOffset ≤ data.length by omega), copyArray_drop hb, nsFormatIpv4, he]
      · simpa [h4, hb, Netscope.nsFormatIpv4] using hout'
    · exact ⟨_,by simp [h4, hb]; rfl,hlen,by simp [h4, hb]⟩
  · exact ⟨_,by simp [h4]; rfl,hlen,by simp [h4]⟩

omit hl hout in
theorem nsDnsFormatAaaa_agrees (rdlength : UInt16) :
    ∃ r, nsDnsFormatAaaa data data.length rdataOffset rdlength out outLen = .ok r ∧
      RenderAgrees outLen (Netscope.nsDnsFormatAaaa data rdataOffset rdlength outLen) r := by
  unfold nsDnsFormatAaaa Netscope.nsDnsFormatAaaa
  by_cases h16 : rdlength = 16
  · by_cases hb : rdataOffset + 16 ≤ data.length
    · have hd : 16 ≤ (data.drop rdataOffset).length := by rw [List.length_drop]; omega
      obtain ⟨out',he,hout'⟩ := nsFormatIpv6_agrees hd (show 0 < outLen by omega) hlen
      have hs : slice (data.drop rdataOffset) 0 16 = slice data rdataOffset 16 := by
        ext i hi
        simp [slice]
      rw [hs] at hout'
      refine ⟨(true,out'),?_,hout'.1,?_⟩
      · simp [h16, hb, advance_ok (show rdataOffset ≤ data.length by omega), he]
      · simpa [h16, hb] using hout'
    · exact ⟨_,by simp [h16, hb]; rfl,hlen,by simp [h16, hb]⟩
  · exact ⟨_,by simp [h16]; rfl,hlen,by simp [h16]⟩

theorem nsDnsFormatNameRdata_agrees :
    ∃ r, nsDnsFormatNameRdata data data.length rdataOffset out outLen = .ok r ∧
      RenderAgrees outLen (Netscope.nsDnsFormatNameRdata data rdataOffset outLen) r := by
  obtain ⟨⟨status,out',stop⟩,he,hlen',ha⟩ := nsDnsDecodeName_agrees hl rdataOffset hout h2 hlen
  rw [nsDnsFormatNameRdata, he]
  refine ⟨_,rfl,hlen',?_⟩
  unfold Netscope.nsDnsFormatNameRdata
  cases hm : Netscope.nsDnsDecodeName data rdataOffset outLen with
  | error e =>
    rw [hm] at ha
    exact decide_eq_false (ne_ok_of_statusOf ha)
  | ok m =>
    rw [hm] at ha
    exact ⟨decide_eq_true ha.1,hlen',ha.2.2⟩

theorem nsDnsFormatMx_agrees :
    ∃ r, nsDnsFormatMx data data.length rdataOffset out outLen = .ok r ∧
      RenderAgrees outLen (Netscope.nsDnsFormatMx data rdataOffset outLen) r := by
  unfold nsDnsFormatMx Netscope.nsDnsFormatMx
  by_cases hb : rdataOffset + 2 ≤ data.length
  · obtain ⟨⟨status,name,stop⟩,he,hlen',ha⟩ := nsDnsDecodeName_agrees hl (rdataOffset + 2)
      (show dnsMaxName + 1 ≤ 2 ^ 32 by norm_num) (by norm_num) (fresh_length (dnsMaxName + 1))
    simp only [nsBoundsCheck_eq, Netscope.nsBoundsCheck_eq, hb, decide_true, Bool.not_true, Bool.false_eq_true, ↓reduceIte,
      ok_bind, nsReadU16be_eq hl, sizeAdd_ok (show rdataOffset + 2 < 2 ^ 64 by omega), he]
    cases hm : Netscope.nsDnsDecodeName data (rdataOffset + 2) (dnsMaxName + 1) with
    | error e =>
      rw [hm] at ha
      rw [ite_of_statusOf ha]
      exact ⟨_,rfl,hlen,rfl⟩
    | ok m =>
      rw [hm] at ha
      obtain ⟨rfl,_,hrest⟩ := ha
      have hname : Holds (dnsMaxName + 1) m.1 name := ⟨hlen',hrest⟩
      obtain ⟨out',he',hout'⟩ := printInto_holds (show 0 < outLen by omega) hlen
        (decimal (u16 data rdataOffset).toNat ++ [32] ++ cString m.1)
      simp only [ne_eq, not_true_eq_false, ↓reduceIte, loadString_holds hname, ok_bind, he']
      exact ⟨_,rfl,hout'.1,rfl,hout'⟩
  · exact ⟨_,by simp [hb]; rfl,hlen,by simp [hb]⟩

omit h2 hlen in
/-- The segment loop copies within the rdata and keeps one byte for the NUL. -/
theorem formatTxtLoop_agrees {rdlength : ℕ} (hr : rdataOffset + rdlength ≤ data.length) (h16 : rdlength < 2 ^ 16)
    {fuel pos : ℕ} (hpos : pos ≤ rdlength) (hf : rdlength < pos + fuel) {text : Bytes} {rest : Cells} (ht : text.length < outLen)
    (hrest : text.length + rest.length = outLen) :
    ∃ rest', formatTxtLoop data rdataOffset rdlength outLen fuel pos (holding text rest) text.length =
        .ok (holding (Netscope.formatTxtLoop data rdataOffset rdlength outLen pos text) rest',
          (Netscope.formatTxtLoop data rdataOffset rdlength outLen pos text).length) ∧
      (Netscope.formatTxtLoop data rdataOffset rdlength outLen pos text).length < outLen ∧
      (Netscope.formatTxtLoop data rdataOffset rdlength outLen pos text).length + rest'.length = outLen := by
  induction fuel generalizing pos text rest with
  | zero => omega
  | succ fuel ih =>
    rw [formatTxtLoop, Netscope.formatTxtLoop, sizeAdd_ok (show text.length + 1 < 2 ^ 64 by omega), ok_bind]
    by_cases hp : pos < rdlength ∧ text.length + 1 < outLen
    · have hseg := (u8 data (rdataOffset + pos)).toNat_lt
      simp only [hp, and_self, ↓reduceIte, sizeAdd_ok (show rdataOffset + pos < 2 ^ 64 by omega), ok_bind,
        load_ok (show rdataOffset + pos < data.length by omega), sizeAdd_ok (show pos + 1 < 2 ^ 64 by omega)]
      generalize hn : (u8 data (rdataOffset + pos)).toNat = n at hseg
      rw [sizeAdd_ok (show pos + 1 + n < 2 ^ 64 by omega), ok_bind]
      by_cases hover : pos + 1 + n > rdlength
      · simp only [hover, ↓reduceIte]
        exact ⟨rest,rfl,ht,hrest⟩
      · simp only [hover, ↓reduceIte]
        obtain ⟨copy,hchecked,hcopy,hle,hlt⟩ := segmentCopy_ok ht (show text.length + n < 2 ^ 64 by omega)
        rw [hchecked, ok_bind, hcopy]
        have hc : (chunk data (rdataOffset + (pos + 1)) copy).length = copy := chunk_length (by omega)
        have hs := storeRange_holding text (chunk data (rdataOffset + (pos + 1)) copy)
          (show (chunk data (rdataOffset + (pos + 1)) copy).length ≤ rest.length by omega)
        rw [sizeAdd_ok (by omega), ok_bind, loadRange_ok (by omega), ok_bind, hs, ok_bind,
          sizeAdd_ok (by omega), ok_bind]
        have hi := @ih (pos + 1 + n) (by omega) (by omega) (text ++ chunk data (rdataOffset + (pos + 1)) copy)
          (rest.drop (chunk data (rdataOffset + (pos + 1)) copy).length) (by rw [List.length_append]; omega)
          (by rw [List.length_append, List.length_drop]; omega)
        rw [List.length_append, hc] at hi
        rw [hc]
        exact hi
    · simp only [hp, ↓reduceIte]
      exact ⟨rest,rfl,ht,hrest⟩

theorem nsDnsFormatTxt_agrees (rdlength : UInt16) :
    ∃ r, nsDnsFormatTxt data data.length rdataOffset rdlength out outLen = .ok r ∧
      RenderAgrees outLen (Netscope.nsDnsFormatTxt data rdataOffset rdlength outLen) r := by
  unfold nsDnsFormatTxt Netscope.nsDnsFormatTxt
  by_cases hb : rdataOffset + rdlength.toNat ≤ data.length
  · have hs := store_holding [] 0 (show 0 < out.length by omega)
    obtain ⟨rest1,he1,hlt,hlen1⟩ := @formatTxtLoop_agrees data hl rdataOffset outLen hout rdlength.toNat hb rdlength.toNat_lt
      (rdlength.toNat + 1) 0 (by omega) (by omega) [] (holding [0] (out.drop 1)) (by simp; omega) (by simp; omega)
    have hs2 := store_holding (Netscope.formatTxtLoop data rdataOffset rdlength.toNat outLen 0 []) 0
      (show 0 < rest1.length by omega)
    simp only [List.length_nil, holding_nil, List.nil_append] at hs he1
    simp only [nsBoundsCheck_eq, Netscope.nsBoundsCheck_eq, hb, decide_true, Bool.not_true, Bool.false_eq_true, ↓reduceIte,
      ok_bind, hs, he1, hs2]
    have hfull : (holding (Netscope.formatTxtLoop data rdataOffset rdlength.toNat outLen 0 [] ++ [0])
        (rest1.drop 1)).length = outLen := by
      rw [holding_length, List.length_append, List.length_drop, List.length_singleton]
      omega
    exact ⟨_,rfl,hfull,rfl,hfull,_,rfl⟩
  · exact ⟨_,by simp [hb]; rfl,hlen,by simp [hb]⟩

theorem renderRdata_agrees (rdlength type : UInt16) :
    ∃ r, renderRdata data data.length rdataOffset rdlength type out outLen = .ok r ∧
      RenderAgrees outLen (Netscope.renderRdata data rdataOffset rdlength type outLen) r := by
  unfold renderRdata Netscope.renderRdata
  split
  · exact nsDnsFormatA_agrees h2 hlen rdlength
  · split
    · exact nsDnsFormatAaaa_agrees h2 hlen rdlength
    · split
      · exact nsDnsFormatNameRdata_agrees hl hout h2 hlen
      · split
        · exact nsDnsFormatMx_agrees hl hout h2 hlen
        · split
          · exact nsDnsFormatTxt_agrees hl hout h2 hlen rdlength
          · exact ⟨_,rfl,hlen,rfl⟩

theorem nsDnsFormatRdata_agrees (rdlength type : UInt16) :
    ∃ out', nsDnsFormatRdata data data.length rdataOffset rdlength type out outLen = .ok out' ∧
      Holds outLen (Netscope.nsDnsFormatRdata data rdataOffset rdlength type outLen) out' := by
  obtain ⟨⟨ok,out'⟩,he,hlen',ha⟩ := @renderRdata_agrees data hl rdataOffset outLen hout h2 out hlen rdlength type
  rw [nsDnsFormatRdata, he, Netscope.nsDnsFormatRdata]
  cases hm : Netscope.renderRdata data rdataOffset rdlength type outLen with
  | none =>
    rw [hm] at ha
    obtain rfl : ok = false := ha
    exact printInto_holds (by omega) hlen' _
  | some text =>
    rw [hm] at ha
    obtain ⟨rfl,hh⟩ := ha
    exact ⟨_,rfl,hh⟩

end Renderers

end Netscope.Checked
