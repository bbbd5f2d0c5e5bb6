import Netscope.Dns.NameGrammar
import Netscope.Dns.MessageSpecs

/-! # The bytes behind a rendered name

The renderers of names inside rdata are given the message and the offset of the
rdata. Next to the decoder stands its trace of reads, each marked with the pointer
that was followed first; the decoder depends on no other byte. The trace shows how
far a rendering reaches, and that the length of the record has no say in it.
-/
namespace Netscope.RdataExtent
open ByteString DnsName

/-- A read of one byte, with the position of the pointer followed first, if any. -/
structure Access where
  position : ℕ
  via : Option ℕ
deriving DecidableEq, Repr

/-- The reads of `decodeNameLoop`, branch by branch. -/
def nameReads (data : Bytes) (outLen pos : ℕ) (text : Bytes) (via : Option ℕ) (jumps : ℕ) : List Access :=
  if !nsBoundsCheck data.length pos 1 then []
  else
    let lenByte := u8 data pos
    if isPointer lenByte then
      if !nsBoundsCheck data.length pos 2 then [⟨pos,via⟩]
      else if jumps + 1 > dnsMaxJumps then [⟨pos,via⟩,⟨pos + 1,via⟩]
      else ⟨pos,via⟩ :: ⟨pos + 1,via⟩ ::
        nameReads data outLen (pointerTarget data pos) text (some (via.getD pos)) (jumps + 1)
    else if lenByte &&& 0xC0 ≠ 0 then [⟨pos,via⟩]
    else if lenByte = 0 then [⟨pos,via⟩]
    else if !nsBoundsCheck data.length (pos + 1) lenByte.toNat then [⟨pos,via⟩]
    else if text.length + lenByte.toNat + 1 ≥ outLen then [⟨pos,via⟩]
    else ⟨pos,via⟩ :: (List.range lenByte.toNat).map (fun i => ⟨pos + 1 + i,via⟩) ++
      nameReads data outLen (pos + 1 + lenByte.toNat)
        (appendLabel text (chunk data (pos + 1) lenByte.toNat)) via jumps
termination_by (dnsMaxJumps - jumps) + (outLen - text.length)
decreasing_by
  · omega
  · rename_i h0 hl _
    have hlt := @length_lt_appendLabel_chunk data text pos h0 (by simpa using hl)
    omega

/-! ## The decoder depends on its reads only -/

theorem chunk_congr {data data' : Bytes} {off n : ℕ} (hlen : data'.length = data.length) (hin : off + n ≤ data.length)
    (h : ∀ i < n, u8 data' (off + i) = u8 data (off + i)) : chunk data' off n = chunk data off n := by
  apply List.ext_getElem
  · rw [chunk_length hin, chunk_length (by omega)]
  · intro i hi hi'
    rw [chunk_length (by omega)] at hi
    have hb := h i hi
    rw [u8_eq_getElem (by omega), u8_eq_getElem (by omega)] at hb
    simpa [chunk] using hb

theorem pointerTarget_congr {data data' : Bytes} {pos : ℕ} (h0 : u8 data' pos = u8 data pos)
    (h1 : u8 data' (pos + 1) = u8 data (pos + 1)) : pointerTarget data' pos = pointerTarget data pos := by
  simp only [pointerTarget, u16, h0, h1]

/-- One iteration on two messages: where the length byte agrees, it is enough that
the two continuations do. -/
theorem decodeNameLoop_step_congr {data data' : Bytes} {outLen pos : ℕ} {text : Bytes} {endOffset : Option ℕ} {jumps : ℕ}
    (hlen : data'.length = data.length) (hb : u8 data' pos = u8 data pos)
    (hpointer : isPointer (u8 data pos) → ¬(!nsBoundsCheck data.length pos 2) → ¬jumps + 1 > dnsMaxJumps →
      decodeNameLoop data' outLen (pointerTarget data' pos) text (some (endOffset.getD (pos + 2))) (jumps + 1) =
        decodeNameLoop data outLen (pointerTarget data pos) text (some (endOffset.getD (pos + 2))) (jumps + 1))
    (hlabel : ¬isPointer (u8 data pos) → u8 data pos &&& 0xC0 = 0 → u8 data pos ≠ 0 →
      ¬(!nsBoundsCheck data.length (pos + 1) (u8 data pos).toNat) → ¬text.length + (u8 data pos).toNat + 1 ≥ outLen →
      decodeNameLoop data' outLen (pos + 1 + (u8 data pos).toNat)
          (appendLabel text (chunk data' (pos + 1) (u8 data pos).toNat)) endOffset jumps =
        decodeNameLoop data outLen (pos + 1 + (u8 data pos).toNat)
          (appendLabel text (chunk data (pos + 1) (u8 data pos).toNat)) endOffset jumps) :
    decodeNameLoop data' outLen pos text endOffset jumps = decodeNameLoop data outLen pos text endOffset jumps := by
  rw [decodeNameLoop, decodeNameLoop.eq_def data, hlen, hb]
  dsimp only
  split_ifs with hp hptr hp2 hjumps hres h0 hl hfit
  · rfl
  · rfl
  · rfl
  · exact hpointer hptr hp2 hjumps
  · rfl
  · rfl
  · rfl
  · rfl
  · exact hlabel hptr (not_not.mp hres) h0 hl hfit

theorem decodeNameLoop_congr {data data' : Bytes} {outLen pos : ℕ} {text : Bytes} {via : Option ℕ} {jumps : ℕ}
    (hlen : data'.length = data.length)
    (h : ∀ x ∈ nameReads data outLen pos text via jumps, u8 data' x.position = u8 data x.position)
    (endOffset : Option ℕ) :
    decodeNameLoop data' outLen pos text endOffset jumps = decodeNameLoop data outLen pos text endOffset jumps := by
  revert h endOffset
  fun_induction nameReads data outLen pos text via jumps with
  | case1 pos text via jumps hp =>
    intro h endOffset
    rw [decodeNameLoop, decodeNameLoop.eq_def data, hlen, if_pos hp, if_pos hp]
  | case2 pos text via jumps hp lenByte hptr hp2 =>
    intro h endOffset
    exact decodeNameLoop_step_congr hlen (h ⟨pos,via⟩ List.mem_cons_self) (fun _ hn => absurd hp2 hn)
      (fun hn => absurd hptr hn)
  | case3 pos text via jumps hp lenByte hptr hp2 hjumps =>
    intro h endOffset
    exact decodeNameLoop_step_congr hlen (h ⟨pos,via⟩ List.mem_cons_self) (fun _ _ hn => absurd hjumps hn)
      (fun hn => absurd hptr hn)
  | case4 pos text via jumps hp lenByte hptr hp2 hjumps ih =>
    intro h endOffset
    have hb : u8 data' pos = u8 data pos := h ⟨pos,via⟩ List.mem_cons_self
    have hb1 : u8 data' (pos + 1) = u8 data (pos + 1) :=
      h ⟨pos + 1,via⟩ (List.mem_cons_of_mem _ List.mem_cons_self)
    apply decodeNameLoop_step_congr hlen hb
    · intro _ _ _
      rw [pointerTarget_congr hb hb1]
      exact ih (fun x hx => h x (List.mem_cons_of_mem _ (List.mem_cons_of_mem _ hx))) _
    · intro hn
      exact absurd hptr hn
  | case5 pos text via jumps hp lenByte hptr hres =>
    intro h endOffset
    exact decodeNameLoop_step_congr hlen (h ⟨pos,via⟩ List.mem_cons_self) (fun hn => absurd hn hptr)
      (fun _ hn => absurd hn hres)
  | case6 pos text via jumps hp lenByte hptr hres h0 =>
    intro h endOffset
    exact decodeNameLoop_step_congr hlen (h ⟨pos,via⟩ List.mem_cons_self) (fun hn => absurd hn hptr)
      (fun _ _ hn => absurd h0 hn)
  | case7 pos text via jumps hp lenByte hptr hres h0 hl =>
    intro h endOffset
    exact decodeNameLoop_step_congr hlen (h ⟨pos,via⟩ List.mem_cons_self) (fun hn => absurd hn hptr)
      (fun _ _ _ hn => absurd hl hn)
  | case8 pos text via jumps hp lenByte hptr hres h0 hl hfit =>
    intro h endOffset
    exact decodeNameLoop_step_congr hlen (h ⟨pos,via⟩ List.mem_cons_self) (fun hn => absurd hn hptr)
      (fun _ _ _ _ hn => absurd hfit hn)
  | case9 pos text via jumps hp lenByte hptr hres h0 hl hfit ih =>
    intro h endOffset
    have hchunk : chunk data' (pos + 1) (u8 data pos).toNat = chunk data (pos + 1) (u8 data pos).toNat := by
      apply chunk_congr hlen (by simpa using hl)
      intro i hi
      apply h ⟨pos + 1 + i,via⟩
      apply List.mem_append_left
      apply List.mem_cons_of_mem
      exact List.mem_map.mpr ⟨i,List.mem_range.mpr hi,rfl⟩
    apply decodeNameLoop_step_congr hlen (h ⟨pos,via⟩ List.mem_cons_self)
    · intro hn
      exact absurd hn hptr
    · intro _ _ _ _ _
      rw [hchunk]
      exact ih (fun x hx => h x (List.mem_append_right _ hx)) _

theorem nsDnsDecodeName_congr {data data' : Bytes} {outLen pos : ℕ} (hlen : data'.length = data.length)
    (h : ∀ x ∈ nameReads data outLen pos [] none 0, u8 data' x.position = u8 data x.position) :
    nsDnsDecodeName data' pos outLen = nsDnsDecodeName data pos outLen := by
  rw [nsDnsDecodeName, nsDnsDecodeName, decodeNameLoop_congr hlen h none]

/-! ## The reads of a chain -/

section Reads
variable {data : Bytes} {outLen pos : ℕ} {text : Bytes} {via : Option ℕ} {jumps : ℕ}

theorem nameReads_root (hp : pos < data.length) (h0 : lengthByte data pos = 0) :
    nameReads data outLen pos text via jumps = [⟨pos,via⟩] := by
  have hb : u8 data pos = 0 := UInt8.toNat_inj.mp h0
  have hp1 : pos + 1 ≤ data.length := hp
  rw [nameReads]
  simp [hp1, hb, isPointer]

theorem nameReads_label (h1 : 1 ≤ lengthByte data pos) (h63 : lengthByte data pos ≤ 63)
    (hl : pos + 1 + lengthByte data pos ≤ data.length) (hfit : text.length + lengthByte data pos + 1 < outLen) :
    nameReads data outLen pos text via jumps =
      ⟨pos,via⟩ :: (List.range (lengthByte data pos)).map (fun i => ⟨pos + 1 + i,via⟩) ++
        nameReads data outLen (pos + 1 + lengthByte data pos)
          (appendLabel text (chunk data (pos + 1) (lengthByte data pos))) via jumps := by
  obtain ⟨hptr,hres,h0⟩ := labelByte h1 h63
  have hp : pos + 1 ≤ data.length := by omega
  rw [nameReads]
  simp [hp, hptr, hres, h0, hl, Nat.not_le.mpr hfit]

theorem nameReads_pointer (hp : pos + 2 ≤ data.length) (h : 192 ≤ lengthByte data pos) (hj : jumps + 1 ≤ dnsMaxJumps) :
    nameReads data outLen pos text via jumps =
      ⟨pos,via⟩ :: ⟨pos + 1,via⟩ :: nameReads data outLen (jumpTarget data pos) text (some (via.getD pos)) (jumps + 1) := by
  have hptr : isPointer (u8 data pos) = true := (isPointer_iff _).mpr h
  have hp1 : pos + 1 ≤ data.length := by omega
  rw [nameReads]
  simp [hp, hp1, hptr, Nat.not_lt.mpr hj, pointerTarget_eq]

/-- The first pointer followed stays the mark of all later reads. -/
theorem via_of_mem_nameReads {q : ℕ} {x : Access} (h : x ∈ nameReads data outLen pos text (some q) jumps) :
    x.via = some q := by
  generalize hvia : some q = via at h
  fun_induction nameReads data outLen pos text via jumps with
  | case1 => cases h
  | case2 | case5 | case6 | case7 | case8 =>
    rw [List.mem_singleton.mp h]
  | case3 =>
    rcases List.mem_pair.mp h with rfl | rfl
    · rfl
    · rfl
  | case4 pos text via jumps hp lenByte hptr hp2 hjumps ih =>
    subst hvia
    rcases List.mem_cons.mp h with rfl | h
    · rfl
    · rcases List.mem_cons.mp h with rfl | h
      · rfl
      · exact ih rfl h
  | case9 pos text via jumps hp lenByte hptr hres h0 hl hfit ih =>
    rcases List.mem_append.mp h with h | h
    · rcases List.mem_cons.mp h with rfl | h
      · rfl
      · obtain ⟨i,-,rfl⟩ := List.mem_map.mp h
        rfl
    · exact ih hvia h

end Reads

/-- The reads in place fill a range that ends at `stop`, with its last byte among them;
a pointer is followed only from the last two bytes of the range. -/
structure ReadsUpTo (pos stop : ℕ) (reads : List Access) : Prop where
  inPlace : ∀ x ∈ reads, x.via = none → pos ≤ x.position ∧ x.position < stop
  pointer : ∀ x ∈ reads, ∀ q, x.via = some q → pos ≤ q ∧ q + 2 = stop
  last : ∃ x ∈ reads, x.via = none ∧ x.position + 1 = stop

/-- Bytes in front of the range, read in place. -/
theorem ReadsUpTo.inFront {pos next stop : ℕ} {front reads : List Access} (h : ReadsUpTo next stop reads)
    (hfront : ∀ x ∈ front, x.via = none ∧ pos ≤ x.position ∧ x.position < next) (hle : pos ≤ next) :
    ReadsUpTo pos stop (front ++ reads) := by
  obtain ⟨last,hlast,hnone,hstop⟩ := h.last
  have hnext := h.inPlace last hlast hnone
  refine ⟨?_,?_,⟨last,List.mem_append_right _ hlast,hnone,hstop⟩⟩
  · intro x hx hvia
    rcases List.mem_append.mp hx with hx | hx
    · have hb := hfront x hx
      omega
    · have hb := h.inPlace x hx hvia
      omega
  · intro x hx q hq
    rcases List.mem_append.mp hx with hx | hx
    · rw [(hfront x hx).1] at hq
      cases hq
    · have hb := h.pointer x hx q hq
      omega

theorem nameReads_readsUpTo {data : Bytes} {outLen pos pointers stop : ℕ} {labels : List Bytes}
    (hc : NameChain data pos labels pointers stop) {text : Bytes} {jumps : ℕ} (hout : 64 < outLen)
    (hj : jumps + pointers ≤ dnsMaxJumps) (hlen : (labels.foldl appendLabel text).length < outLen) :
    ReadsUpTo pos stop (nameReads data outLen pos text none jumps) := by
  induction hc generalizing text jumps with
  | @root pos hp h0 =>
    rw [nameReads_root hp h0]
    refine ⟨?_,?_,⟨⟨pos,none⟩,List.mem_singleton_self _,rfl,rfl⟩⟩
    · intro x hx _
      obtain rfl := List.mem_singleton.mp hx
      exact ⟨le_rfl,Nat.lt_succ_self pos⟩
    · intro x hx q hq
      obtain rfl := List.mem_singleton.mp hx
      cases hq
  | @label pos labels pointers stop h1 h63 hl rest ih =>
    rw [nameReads_label h1 h63 hl (label_fits hout h63 hl hlen)]
    rw [List.foldl_cons] at hlen
    refine (ih hj hlen).inFront ?_ (by omega)
    intro x hx
    rcases List.mem_cons.mp hx with rfl | hx
    · exact ⟨rfl,le_rfl,by dsimp only; omega⟩
    · obtain ⟨i,hi,rfl⟩ := List.mem_map.mp hx
      have hi := List.mem_range.mp hi
      exact ⟨rfl,by dsimp only; omega,by dsimp only; omega⟩
  | @pointer pos labels pointers stop hp h rest ih =>
    rw [nameReads_pointer hp h (by omega)]
    refine ⟨?_,?_,⟨⟨pos + 1,none⟩,List.mem_cons_of_mem _ List.mem_cons_self,rfl,rfl⟩⟩
    · intro x hx hvia
      rcases List.mem_cons.mp hx with rfl | hx
      · exact ⟨le_rfl,by dsimp only; omega⟩
      · rcases List.mem_cons.mp hx with rfl | hx
        · exact ⟨by dsimp only; omega,by dsimp only; omega⟩
        · rw [via_of_mem_nameReads hx] at hvia
          cases hvia
    · intro x hx q hq
      rcases List.mem_cons.mp hx with rfl | hx
      · cases hq
      · rcases List.mem_cons.mp hx with rfl | hx
        · cases hq
        · rw [via_of_mem_nameReads hx] at hq
          obtain rfl : pos = q := Option.some.inj hq
          exact ⟨le_rfl,rfl⟩

/-! ## Renderings of names -/

/-- The types whose rdata ends in a name. -/
def HasNameRdata (type : UInt16) : Prop :=
  type = dnsTypeCname ∨ type = dnsTypeNs ∨ type = dnsTypePtr ∨ type = dnsTypeMx

/-- Where the name starts in rdata at `k`: behind the preference of a mail exchange. -/
def nameStart (type : UInt16) (k : ℕ) : ℕ := if type = dnsTypeMx then k + 2 else k

/-- The limit on the name text in rdata of this type. -/
def nameLimit (type : UInt16) : ℕ := if type = dnsTypeMx then dnsMaxName + 1 else dnsMaxRdataText

/-- The reads of `nsDnsFormatRdata` at `k` for the types whose rdata ends in a name. -/
def renderReads (data : Bytes) (k : ℕ) (type : UInt16) : List Access :=
  if type = dnsTypeCname ∨ type = dnsTypeNs ∨ type = dnsTypePtr then nameReads data dnsMaxRdataText k [] none 0
  else if type = dnsTypeMx then
    if !nsBoundsCheck data.length k 2 then []
    else ⟨k,none⟩ :: ⟨k + 1,none⟩ :: nameReads data (dnsMaxName + 1) (k + 2) [] none 0
  else []

section Render
variable {data : Bytes} {k : ℕ} {rdlength type : UInt16}

theorem renderRdata_name (h : type = dnsTypeCname ∨ type = dnsTypeNs ∨ type = dnsTypePtr) (outLen : ℕ) :
    renderRdata data k rdlength type outLen = nsDnsFormatNameRdata data k outLen := by
  have hA : type ≠ dnsTypeA := by rcases h with rfl | rfl | rfl <;> decide
  have hAaaa : type ≠ dnsTypeAaaa := by rcases h with rfl | rfl | rfl <;> decide
  rw [renderRdata, if_neg hA, if_neg hAaaa, if_pos h]

theorem renderRdata_mx (outLen : ℕ) :
    renderRdata data k rdlength dnsTypeMx outLen = nsDnsFormatMx data k outLen := by
  rfl

theorem nsDnsDecodeName_isOk_iff {o outLen : ℕ} (hout : 64 < outLen) :
    (∃ r, nsDnsDecodeName data o outLen = .ok r) ↔ ∃ labels pointers stop, NameChain data o labels pointers stop ∧
      pointers ≤ dnsMaxJumps ∧ (dottedText labels).length < outLen := by
  constructor
  · rintro ⟨⟨text,stop⟩,h⟩
    obtain ⟨labels,pointers,hc,hj,hlen,-⟩ := (nsDnsDecodeName_ok_iff hout text stop).mp h
    exact ⟨labels,pointers,stop,hc,hj,hlen⟩
  · rintro ⟨labels,pointers,stop,hc,hj,hlen⟩
    exact ⟨_,(nsDnsDecodeName_ok_iff hout _ stop).mpr ⟨labels,pointers,hc,hj,hlen,rfl⟩⟩

theorem nsDnsFormatNameRdata_isSome_iff (outLen : ℕ) :
    (nsDnsFormatNameRdata data k outLen).isSome ↔ ∃ r, nsDnsDecodeName data k outLen = .ok r := by
  rw [nsDnsFormatNameRdata]
  cases nsDnsDecodeName data k outLen with
  | error e => simp
  | ok r => simp

theorem nsDnsFormatMx_isSome_iff (outLen : ℕ) :
    (nsDnsFormatMx data k outLen).isSome ↔
      k + 2 ≤ data.length ∧ ∃ r, nsDnsDecodeName data (k + 2) (dnsMaxName + 1) = .ok r := by
  rw [nsDnsFormatMx]
  by_cases hb : k + 2 ≤ data.length
  · cases nsDnsDecodeName data (k + 2) (dnsMaxName + 1) with
    | error e => simp [hb]
    | ok r => simp [hb]
  · simp [hb]

/-- A name inside rdata is rendered when its chain keeps the limits of the decoder;
the length of the rdata plays no part. -/
theorem renderRdata_isSome_iff (h : HasNameRdata type) :
    (renderRdata data k rdlength type dnsMaxRdataText).isSome ↔
      ∃ labels pointers stop, NameChain data (nameStart type k) labels pointers stop ∧ pointers ≤ dnsMaxJumps ∧
        (dottedText labels).length < nameLimit type := by
  by_cases hmx : type = dnsTypeMx
  · subst hmx
    rw [renderRdata_mx, nsDnsFormatMx_isSome_iff, nsDnsDecodeName_isOk_iff (by decide)]
    constructor
    · intro hs
      exact hs.2
    · rintro ⟨labels,pointers,stop,hc,hlimits⟩
      have hbounds := hc.stop_bounds
      exact ⟨hbounds.1.le.trans hbounds.2,labels,pointers,stop,hc,hlimits⟩
  · have hname : type = dnsTypeCname ∨ type = dnsTypeNs ∨ type = dnsTypePtr := by
      simpa [HasNameRdata, hmx] using h
    rw [renderRdata_name hname, nsDnsFormatNameRdata_isSome_iff, nsDnsDecodeName_isOk_iff (by decide), nameStart,
      if_neg hmx, nameLimit, if_neg hmx]

/-- The rendering depends on the bytes of its trace only. -/
theorem renderRdata_congr {data' : Bytes} (h : HasNameRdata type) (hlen : data'.length = data.length)
    (hreads : ∀ x ∈ renderReads data k type, u8 data' x.position = u8 data x.position) :
    renderRdata data' k rdlength type dnsMaxRdataText = renderRdata data k rdlength type dnsMaxRdataText := by
  by_cases hmx : type = dnsTypeMx
  · subst hmx
    rw [renderRdata_mx, renderRdata_mx, nsDnsFormatMx, nsDnsFormatMx, hlen]
    by_cases hb : k + 2 ≤ data.length
    · have hcond : ¬(!nsBoundsCheck data.length k 2) = true := by simpa using hb
      have hin : renderReads data k dnsTypeMx =
          ⟨k,none⟩ :: ⟨k + 1,none⟩ :: nameReads data (dnsMaxName + 1) (k + 2) [] none 0 := by
        rw [renderReads, if_neg (by decide), if_pos rfl, if_neg hcond]
      rw [hin] at hreads
      have h0 : u8 data' k = u8 data k := hreads ⟨k,none⟩ List.mem_cons_self
      have h1 : u8 data' (k + 1) = u8 data (k + 1) := hreads ⟨k + 1,none⟩ (List.mem_cons_of_mem _ List.mem_cons_self)
      have hname := nsDnsDecodeName_congr hlen
        (fun x hx => hreads x (List.mem_cons_of_mem _ (List.mem_cons_of_mem _ hx)))
      rw [if_neg hcond, if_neg hcond, hname, u16, u16, h0, h1]
    · have hcond : (!nsBoundsCheck data.length k 2) = true := by simpa using hb
      rw [if_pos hcond, if_pos hcond]
  · have hname : type = dnsTypeCname ∨ type = dnsTypeNs ∨ type = dnsTypePtr := by
      simpa [HasNameRdata, hmx] using h
    rw [renderReads, if_pos hname] at hreads
    rw [renderRdata_name hname, renderRdata_name hname, nsDnsFormatNameRdata, nsDnsFormatNameRdata,
      nsDnsDecodeName_congr hlen hreads]

/-- How far a rendering reaches: up to the end of its name in place. -/
theorem renderReads_readsUpTo {labels : List Bytes} {pointers stop : ℕ} (h : HasNameRdata type)
    (hc : NameChain data (nameStart type k) labels pointers stop) (hj : pointers ≤ dnsMaxJumps)
    (hlen : (dottedText labels).length < nameLimit type) : ReadsUpTo k stop (renderReads data k type) := by
  by_cases hmx : type = dnsTypeMx
  · subst hmx
    have hbounds := hc.stop_bounds
    change k + 2 < stop ∧ stop ≤ data.length at hbounds
    have hcond : ¬(!nsBoundsCheck data.length k 2) = true := by
      simp only [nsBoundsCheck_eq, Bool.not_eq_true', decide_eq_false_iff_not, not_not]
      omega
    have hreads : ReadsUpTo (k + 2) stop (nameReads data (dnsMaxName + 1) (k + 2) [] none 0) :=
      nameReads_readsUpTo hc (by decide) (by omega) (hc.foldl_length_lt (by decide) hlen)
    rw [renderReads, if_neg (by decide), if_pos rfl, if_neg hcond]
    refine @ReadsUpTo.inFront k (k + 2) stop [⟨k,none⟩,⟨k + 1,none⟩] _ hreads ?_ (by omega)
    intro x hx
    rcases List.mem_pair.mp hx with rfl | rfl
    · exact ⟨rfl,le_rfl,by dsimp only; omega⟩
    · exact ⟨rfl,by dsimp only; omega,by dsimp only; omega⟩
  · have hname : type = dnsTypeCname ∨ type = dnsTypeNs ∨ type = dnsTypePtr := by
      simpa [HasNameRdata, hmx] using h
    rw [nameStart, if_neg hmx] at hc
    rw [nameLimit, if_neg hmx] at hlen
    rw [renderReads, if_pos hname]
    exact nameReads_readsUpTo hc (by decide) (by omega) (hc.foldl_length_lt (by decide) hlen)

end Render

/-! ## The answers of a message -/

/-- The read stays inside `start ≤ · < stop`, or a pointer inside of it was followed. -/
def Access.Inside (start stop : ℕ) (x : Access) : Prop :=
  (x.via = none → start ≤ x.position ∧ x.position < stop) ∧ ∀ q, x.via = some q → start ≤ q ∧ q + 2 ≤ stop

/-- When the rdata at `k` is rendered, its reads stay inside the rdata. -/
def RendersInside (data : Bytes) (a : DnsRecord) (k : ℕ) : Prop :=
  (renderRdata data k a.rdlength a.type dnsMaxRdataText).isSome →
    ∀ x ∈ renderReads data k a.type, x.Inside k (k + a.rdlength.toNat)

/-- The name in the rdata at `k`, when it is one the decoder takes, ends inside the rdata. -/
def NameFits (data : Bytes) (a : DnsRecord) (k : ℕ) : Prop :=
  HasNameRdata a.type → ∀ labels pointers stop, NameChain data (nameStart a.type k) labels pointers stop →
    pointers ≤ dnsMaxJumps → (dottedText labels).length < nameLimit a.type → stop ≤ k + a.rdlength.toNat

theorem rendersInside_iff (data : Bytes) (a : DnsRecord) (k : ℕ) : RendersInside data a k ↔ NameFits data a k := by
  constructor
  · intro hinside htype labels pointers stop hc hj hlen
    have hsome : (renderRdata data k a.rdlength a.type dnsMaxRdataText).isSome :=
      (renderRdata_isSome_iff htype).mpr ⟨labels,pointers,stop,hc,hj,hlen⟩
    obtain ⟨x,hx,hvia,hlast⟩ := (renderReads_readsUpTo htype hc hj hlen).last
    have hlt := ((hinside hsome x hx).1 hvia).2
    omega
  · intro hfits hsome x hx
    by_cases htype : HasNameRdata a.type
    · obtain ⟨labels,pointers,stop,hc,hj,hlen⟩ := (renderRdata_isSome_iff htype).mp hsome
      have hstop := hfits htype labels pointers stop hc hj hlen
      have hreads := renderReads_readsUpTo htype hc hj hlen
      refine ⟨?_,?_⟩
      · intro hvia
        have hb := hreads.inPlace x hx hvia
        omega
      · intro q hq
        have hb := hreads.pointer x hx q hq
        omega
    · have hnone : renderReads data k a.type = [] := by
        simp only [HasNameRdata, not_or] at htype
        simp [renderReads, htype]
      rw [hnone] at hx
      cases hx

/-- The offsets of the rdata of the records from `offset` on. -/
def answerOffsets (data : Bytes) : ℕ → ℕ → List ℕ
  | 0, _ => []
  | remaining + 1, offset =>
    match nsDnsParseRecord data offset with
    | .ok (a,stop) => (stop - a.rdlength.toNat) :: answerOffsets data remaining stop
    | .error _ => []

/-- The offsets of the rdata of the decoded answers. -/
def rdataOffsets (data : Bytes) : List ℕ :=
  match parseQuestions data (u16 data 4).toNat 0 12 with
  | .ok (_,offset) => answerOffsets data (min (u16 data 6).toNat dnsMaxAnswers) offset
  | .error _ => []

/-- The answer was decoded from fixed fields that end at `k`. -/
def LocatedAt (data : Bytes) (a : DnsRecord) (k : ℕ) : Prop :=
  ∃ name nameEnd, a = recordAt data name nameEnd ∧ k = nameEnd + 10

theorem nsDnsParseRecord_located {data : Bytes} {offset stop : ℕ} {a : DnsRecord}
    (h : nsDnsParseRecord data offset = .ok (a,stop)) : LocatedAt data a (stop - a.rdlength.toNat) := by
  obtain ⟨nameEnd,_,hrecord,rfl⟩ := nsDnsParseRecord_ok h
  exact ⟨a.name,nameEnd,hrecord,Nat.add_sub_cancel _ _⟩

theorem parseAnswers_located {data : Bytes} {remaining offset : ℕ} {answers : List DnsRecord}
    (h : parseAnswers data remaining offset = .ok answers) :
    List.Forall₂ (LocatedAt data) answers (answerOffsets data remaining offset) := by
  induction remaining generalizing offset answers with
  | zero =>
    obtain rfl : [] = answers := Except.ok.inj h
    exact .nil
  | succ remaining ih =>
    obtain ⟨a,stop,rest,hr,hrest,rfl⟩ := parseAnswers_ok h
    rw [answerOffsets, hr]
    exact .cons (nsDnsParseRecord_located hr) (ih hrest)

theorem nsParseDns_located {data : Bytes} {info : DnsInfo} (h : nsParseDns data = .ok info) :
    List.Forall₂ (LocatedAt data) info.answers (rdataOffsets data) := by
  obtain ⟨-,questions,offset,answers,hq,ha,rfl⟩ := nsParseDns_ok_iff.mp h
  rw [rdataOffsets, hq]
  exact parseAnswers_located ha

/-- Every decoded answer has its rdata at the listed offset, the reads listed for it
are all that its rendering depends on, and they stay inside the rdata. -/
structure AnswersInside (data : Bytes) (info : DnsInfo) : Prop where
  located : List.Forall₂ (LocatedAt data) info.answers (rdataOffsets data)
  traced : ∀ p ∈ info.answers.zip (rdataOffsets data), HasNameRdata p.1.type → ∀ data', data'.length = data.length →
    (∀ x ∈ renderReads data p.2 p.1.type, u8 data' x.position = u8 data x.position) →
    renderRdata data' p.2 p.1.rdlength p.1.type dnsMaxRdataText =
      renderRdata data p.2 p.1.rdlength p.1.type dnsMaxRdataText
  inside : ∀ p ∈ info.answers.zip (rdataOffsets data), RendersInside data p.1 p.2

/-- The renderings of a message stay inside their rdata exactly when every name in
rdata ends there by itself. -/
theorem answersInside_iff (data : Bytes) (info : DnsInfo) (h : nsParseDns data = .ok info) :
    AnswersInside data info ↔ ∀ p ∈ info.answers.zip (rdataOffsets data), NameFits data p.1 p.2 := by
  constructor
  · intro hinside p hp
    exact (rendersInside_iff data p.1 p.2).mp (hinside.inside p hp)
  · intro hfits
    refine ⟨nsParseDns_located h,?_,?_⟩
    · intro p _ htype data' hlen hreads
      exact renderRdata_congr htype hlen hreads
    · intro p hp
      exact (rendersInside_iff data p.1 p.2).mpr (hfits p hp)

/-! ## An alias that runs past its rdata -/

/-- A response whose one answer is an alias with the given length of rdata and the name `a`. -/
def aliasResponse (rdlength : UInt8) : Bytes :=
  [0,1,0x81,0x80,0,0,0,1,0,0,0,0] ++ [0,0,5,0,1,0,0,0,60,0,rdlength] ++ [1,97,0]

def aliasInfo (rdlength : UInt16) : DnsInfo where
  transactionId := 1
  flags := 0x8180
  isResponse := true
  questionCount := 0
  answerCount := 1
  authorityCount := 0
  additionalCount := 0
  questions := []
  answers := [{ name := [dot], type := dnsTypeCname, rclass := 1, ttl := 60, rdlength := rdlength, rdataText := [97] }]

theorem answersInside_iff_three :
    nsParseDns (aliasResponse 3) = .ok (aliasInfo 3) ∧
      (AnswersInside (aliasResponse 3) (aliasInfo 3) ↔
        ∀ p ∈ (aliasInfo 3).answers.zip (rdataOffsets (aliasResponse 3)), NameFits (aliasResponse 3) p.1 p.2) := by
  have hparse : nsParseDns (aliasResponse 3) = .ok (aliasInfo 3) := by decide +kernel
  exact ⟨hparse,answersInside_iff _ _ hparse⟩

/-- With a single byte of rdata the same three bytes are read. -/
theorem aliasResponse_runsPast :
    nsParseDns (aliasResponse 1) = .ok (aliasInfo 1) ∧ ¬AnswersInside (aliasResponse 1) (aliasInfo 1) := by
  refine ⟨by decide +kernel,?_⟩
  intro hinside
  have hoffsets : rdataOffsets (aliasResponse 1) = [23] := by decide +kernel
  have hmem := hinside.inside (_,23) (by rw [hoffsets]; exact List.mem_cons_self)
  have hread := hmem (by decide +kernel) ⟨24,none⟩ (by decide +kernel)
  exact absurd (hread.1 rfl).2 (by decide)

end Netscope.RdataExtent
