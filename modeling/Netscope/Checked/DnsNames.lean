import Netscope.Checked.Dns

/-! # The name decoder never leaves its buffers

The loop is followed in step with the functional decoder. Its iterations are
bounded by the remaining pointers and by the labels that still fit the buffer.
-/
namespace Netscope.Checked
open ByteString PartialMemory Netscope.DnsName

/-- The iterations that a loop state can still take. Every label after the first
adds a dot and at least one byte. -/
def iterationsLeft (outLen : ℕ) (text : Bytes) (jumps : ℕ) : ℕ :=
  (dnsMaxJumps - jumps) + (if text = [] then outLen / 2 else (outLen - 1 - text.length) / 2) + 1

/-- The checked loop state that stands for the arguments of the functional loop. -/
def nameState (text : Bytes) (rest : Cells) (endOffset : Option ℕ) (jumps : ℕ) : NameState where
  out := holding text rest
  outPos := text.length
  endSet := endOffset.isSome
  endOffset := endOffset
  jumps := jumps

/-- The result of the checked loop agrees with that of the functional one. -/
def LoopAgrees (outLen : ℕ) (model : Parsed (Bytes × ℕ)) (r : ParseStatus × NameState) : Prop :=
  r.2.out.length = outLen ∧
  match model with
  | .ok (text,stop) => r.1 = .ok ∧ r.2.outPos = text.length ∧ r.2.endOffset = some stop ∧ text.length < outLen ∧
      ∃ rest, r.2.out = holding text rest
  | .error e => r.1 = statusOf e

theorem statusOf_ne_ok (e : ParseError) : statusOf e ≠ .ok := by cases e <;> simp [statusOf]

theorem ne_ok_of_statusOf {status : ParseStatus} {e : ParseError} (h : status = statusOf e) : status ≠ .ok := by
  rw [h]
  exact statusOf_ne_ok e

/-- A parser returns at once when the one it called has failed. -/
theorem ite_of_statusOf {α : Type} {status : ParseStatus} {e : ParseError} (h : status = statusOf e) (x y : α) :
    (if status ≠ .ok then x else y) = x := if_pos (ne_ok_of_statusOf h)

theorem iterationsLeft_label {outLen jumps k : ℕ} {text label : Bytes} (h1 : 1 ≤ label.length)
    (hfit : text.length + label.length + 1 < outLen) (hf : iterationsLeft outLen text jumps ≤ k + 1) :
    iterationsLeft outLen (appendLabel text label) jumps ≤ k := by
  have hne : appendLabel text label ≠ [] := by
    apply List.ne_nil_of_length_pos
    exact Nat.zero_lt_of_lt (length_lt_appendLabel h1)
  unfold iterationsLeft at hf ⊢
  rw [if_neg hne]
  by_cases ht : text = []
  · subst ht
    rw [appendLabel_nil]
    simp only [↓reduceIte, List.length_nil] at hf hfit
    omega
  · rw [appendLabel_length _ ht]
    rw [if_neg ht] at hf
    omega

section Writes
variable {text : Bytes} {rest : Cells} {outLen : ℕ}

theorem writeDot_ok (hrest : text.length + rest.length = outLen) (hlt : text.length + 1 < outLen)
    (hout : outLen ≤ 2 ^ 32) (endOffset : Option ℕ) (jumps : ℕ) :
    ∃ rest', writeDot (nameState text rest endOffset jumps) =
      .ok (nameState (if text ≠ [] then text ++ [dot] else text) rest' endOffset jumps) ∧
      (if text ≠ [] then text ++ [dot] else text).length + rest'.length = outLen := by
  by_cases ht : text = []
  · subst ht
    exact ⟨rest,by simp [writeDot, nameState],by simpa using hrest⟩
  · refine ⟨rest.drop 1,?_,by simp [ht]; omega⟩
    have hpos : text.length ≠ 0 := by simpa using ht
    simp [writeDot, nameState, ht, store_holding text dot (show 0 < rest.length by omega),
      sizeAdd_ok (show text.length + 1 < 2 ^ 64 by omega)]

/-- Writing one label with the dot before it. -/
theorem writeLabel_ok {data : Bytes} {pos n : ℕ} (hl : pos + n ≤ data.length)
    (hrest : text.length + rest.length = outLen) (hfit : text.length + n + 1 < outLen) (h1 : 1 ≤ n)
    (hout : outLen ≤ 2 ^ 32) (endOffset : Option ℕ) (jumps : ℕ) :
    ∃ rest', writeLabel data pos n (nameState text rest endOffset jumps) =
      .ok (nameState (appendLabel text (chunk data pos n)) rest' endOffset jumps) ∧
      (appendLabel text (chunk data pos n)).length + rest'.length = outLen := by
  obtain ⟨rest1,he,hlen⟩ := writeDot_ok hrest (by omega) hout endOffset jumps
  have hle : (if text ≠ [] then text ++ [dot] else text).length ≤ text.length + 1 := by split <;> simp
  have hc := chunk_length hl
  have hstore := storeRange_holding (if text ≠ [] then text ++ [dot] else text) (chunk data pos n)
    (show (chunk data pos n).length ≤ rest1.length by omega)
  refine ⟨rest1.drop n,?_,?_⟩
  · rw [writeLabel, he, ok_bind, loadRange_ok hl, ok_bind]
    dsimp only [nameState]
    rw [hstore, ok_bind, sizeAdd_ok (by omega), ok_bind, hc, appendLabel]
    simp [hc]
  · rw [appendLabel, List.length_append, hc, List.length_drop]
    omega

theorem markEnd_ok {pos size : ℕ} (h : pos + size < 2 ^ 64) (endOffset : Option ℕ) (jumps : ℕ) :
    markEnd (nameState text rest endOffset jumps) pos size =
      .ok (nameState text rest (some (endOffset.getD (pos + size))) jumps) := by
  cases endOffset with
  | none => simp [markEnd, nameState, sizeAdd_ok h]
  | some e => simp [markEnd, nameState]

end Writes

/-- The checked loop runs in step with the functional one. -/
theorem decodeNameLoop_agrees {data : Bytes} (hl : data.length < 2 ^ 64) {outLen : ℕ} (hout : outLen ≤ 2 ^ 32)
    {pos : ℕ} {text : Bytes} {endOffset : Option ℕ} {jumps fuel : ℕ} {rest : Cells}
    (hf : iterationsLeft outLen text jumps ≤ fuel) (ht : text.length < outLen)
    (hrest : text.length + rest.length = outLen) :
    ∃ r, decodeNameLoop data data.length outLen fuel pos (nameState text rest endOffset jumps) = .ok r ∧
      LoopAgrees outLen (Netscope.decodeNameLoop data outLen pos text endOffset jumps) r := by
  induction fuel generalizing pos text endOffset jumps rest with
  | zero => simp [iterationsLeft] at hf
  | succ fuel ih =>
    have hlen : (nameState text rest endOffset jumps).out.length = outLen := by simpa [nameState] using hrest
    rw [decodeNameLoop, Netscope.decodeNameLoop, nsReadU8_eq]
    simp only [Netscope.nsBoundsCheck_eq]
    by_cases hp : pos + 1 ≤ data.length
    · simp only [hp, ↓reduceIte, decide_true, Bool.not_true, Bool.false_eq_true, ok_bind, pure_eq_ok]
      by_cases hptr : isPointer (u8 data pos) = true
      · simp only [hptr, ↓reduceIte, nsReadU16be_eq hl]
        by_cases hp2 : pos + 2 ≤ data.length
        · simp only [hp2, ↓reduceIte, decide_true, Bool.not_true, Bool.false_eq_true, ok_bind,
            markEnd_ok (show pos + 2 < 2 ^ 64 by omega)]
          by_cases hj : jumps + 1 > dnsMaxJumps
          · exact ⟨_,by simp [nameState, hj]; rfl,by simpa [nameState] using hrest,by simp [hj, statusOf]⟩
          · simp only [hj, ↓reduceIte]
            have hf' : iterationsLeft outLen text (jumps + 1) ≤ fuel := by
              unfold iterationsLeft at hf ⊢
              omega
            have hi := @ih (pointerTarget data pos) text (some (endOffset.getD (pos + 2))) (jumps + 1) rest hf' ht hrest
            rw [if_neg (show ¬(nameState text rest (some (endOffset.getD (pos + 2))) jumps).jumps + 1 > dnsMaxJumps from hj)]
            exact hi
        · exact ⟨_,by simp [hp2]; rfl,hlen,by simp [hp2, statusOf]⟩
      · simp only [hptr, Bool.false_eq_true, ↓reduceIte]
        by_cases hres : u8 data pos &&& 0xC0 = 0
        · simp only [hres, ne_eq, not_true_eq_false, ↓reduceIte]
          by_cases h0 : u8 data pos = 0
          · simp only [h0, ↓reduceIte, markEnd_ok (show pos + 1 < 2 ^ 64 by omega), ok_bind]
            exact ⟨_,rfl,by simpa [nameState] using hrest,rfl,rfl,rfl,ht,rest,rfl⟩
          · have h63 := (plainLength_iff _).mp hres
            have h1 : 1 ≤ (u8 data pos).toNat := by
              rw [Nat.one_le_iff_ne_zero]
              intro h
              exact h0 (UInt8.toNat_inj.mp h)
            simp only [h0, ↓reduceIte, sizeAdd_ok (show pos + 1 < 2 ^ 64 by omega), ok_bind, nsBoundsCheck_eq]
            by_cases hlab : pos + 1 + (u8 data pos).toNat ≤ data.length
            · have hadd1 : sizeAdd (nameState text rest endOffset jumps).outPos (u8 data pos).toNat =
                  .ok (text.length + (u8 data pos).toNat) := sizeAdd_ok (by simp only [nameState]; omega)
              simp only [hlab, decide_true, Bool.not_true, Bool.false_eq_true, ↓reduceIte, hadd1, ok_bind,
                sizeAdd_ok (show text.length + (u8 data pos).toNat + 1 < 2 ^ 64 by omega)]
              by_cases hfit : text.length + (u8 data pos).toNat + 1 ≥ outLen
              · exact ⟨_,by simp [hfit]; rfl,hlen,by simp [hfit, statusOf]⟩
              · obtain ⟨rest',hw,hrest'⟩ := writeLabel_ok hlab hrest (by omega) h1 hout endOffset jumps
                simp only [hfit, ↓reduceIte, hw, ok_bind,
                  sizeAdd_ok (show pos + 1 + (u8 data pos).toNat < 2 ^ 64 by omega)]
                have hc := chunk_length hlab
                have hle : (appendLabel text (chunk data (pos + 1) (u8 data pos).toNat)).length < outLen := by
                  by_cases htext : text = []
                  · subst htext
                    rw [appendLabel_nil, hc]
                    simp only [List.length_nil] at hfit
                    omega
                  · rw [appendLabel_length _ htext, hc]
                    omega
                exact ih (iterationsLeft_label (by omega) (by omega) hf) hle hrest'
            · exact ⟨_,by simp [hlab]; rfl,hlen,by simp [hlab, statusOf]⟩
        · exact ⟨_,by simp [hres]; rfl,hlen,by simp [hres, statusOf]⟩
    · exact ⟨_,by simp [hp]; rfl,hlen,by simp [hp, statusOf]⟩

/-- What a call of the name decoder leaves behind, given the outcome of its model. -/
def NameAgrees (outLen : ℕ) (model : Parsed (Bytes × ℕ)) (r : ParseStatus × Cells × Option ℕ) : Prop :=
  r.2.1.length = outLen ∧
  match model with
  | .ok (text,stop) => r.1 = .ok ∧ r.2.2 = some stop ∧ ∃ rest, r.2.1 = holding (text ++ [0]) rest
  | .error e => r.1 = statusOf e

theorem nsDnsDecodeName_agrees {data : Bytes} (hl : data.length < 2 ^ 64) (offset : ℕ) {out : Cells} {outLen : ℕ}
    (hout : outLen ≤ 2 ^ 32) (h2 : 2 ≤ outLen) (hlen : out.length = outLen) :
    ∃ r, nsDnsDecodeName data data.length offset out outLen = .ok r ∧
      NameAgrees outLen (Netscope.nsDnsDecodeName data offset outLen) r := by
  have h0 : outLen ≠ 0 := by omega
  have hf : iterationsLeft outLen [] 0 ≤ nameIterations outLen := by
    simp only [iterationsLeft, nameIterations, ↓reduceIte]
    omega
  obtain ⟨⟨status,s⟩,he,ha⟩ := @decodeNameLoop_agrees data hl outLen hout offset [] none 0
    (nameIterations outLen) out hf (by simp; omega) (by simpa using hlen)
  have hstart : nameState [] out none 0 = { out := out, outPos := 0, endSet := false, endOffset := none, jumps := 0 } := rfl
  rw [nsDnsDecodeName, Netscope.nsDnsDecodeName, if_neg h0, if_neg h0, ← hstart, he]
  cases hm : Netscope.decodeNameLoop data outLen offset [] none 0 with
  | error e =>
    rw [hm] at ha
    obtain ⟨hlen',hst⟩ := ha
    have hne : status ≠ .ok := ne_ok_of_statusOf hst
    simp only [ok_bind, ne_eq, hne, not_false_eq_true, ↓reduceIte, pure_eq_ok, error_bind]
    exact ⟨_,rfl,hlen',hst⟩
  | ok m =>
    obtain ⟨text,stop⟩ := m
    rw [hm] at ha
    obtain ⟨hlen',hst,hpos,hstop,hlt,rest,hrest⟩ := ha
    dsimp only at hlen' hst hpos hstop hrest
    subst hst
    rw [hrest, holding_length] at hlen'
    simp only [ok_bind, ne_eq, not_true_eq_false, ↓reduceIte, pure_eq_ok]
    by_cases htext : text.length = 0
    · obtain rfl : text = [] := List.length_eq_zero_iff.mp htext
      simp only [List.length_nil] at hpos hlen'
      have hs1 := store_holding [] dot (show 0 < rest.length by omega)
      have hs2 := store_holding ([] ++ [dot]) 0 (show 0 < (rest.drop 1).length by simp; omega)
      simp only [writeRoot, hpos, hrest, ↓reduceIte]
      simp only [List.length_nil, List.nil_append, List.length_singleton] at hs1 hs2
      rw [hs1, ok_bind, sizeAdd_ok (by omega), ok_bind, pure_eq_ok, ok_bind, Nat.zero_add, hs2, ok_bind]
      exact ⟨_,rfl,by simp; omega,rfl,hstop,_,rfl⟩
    · have hs := store_holding text 0 (show 0 < rest.length by omega)
      simp only [writeRoot, hpos, htext, ↓reduceIte, pure_eq_ok, ok_bind, hrest, hs, finishName]
      exact ⟨_,rfl,by simp; omega,rfl,hstop,_,rfl⟩

/-- The decoder with a 256-byte buffer accepts exactly the names of the grammar that
follow at most 32 pointers and whose text has at most 255 bytes. It then leaves the
dotted text and a NUL in the buffer and the end of the bytes in place in `*end_offset`,
which no message that agrees on these bytes can change. -/
theorem nsDnsDecodeName_accepts_grammar (msg : Buffer) (offset : ℕ) (out : Vector (Option UInt8) 256) :
    ∃ status out' endOffset,
      nsDnsDecodeName msg.bytes msg.bytes.length offset out.toList 256 = .ok (status,out',endOffset) ∧
      (status = .ok ↔ ∃ labels pointers stop, NameChain msg.bytes offset labels pointers stop ∧ pointers ≤ 32 ∧
        (dottedText labels).length ≤ 255) ∧
      ∀ labels pointers stop, NameChain msg.bytes offset labels pointers stop → pointers ≤ 32 →
        (dottedText labels).length ≤ 255 →
        (∃ rest, out' = holding (dottedText labels ++ [0]) rest) ∧ endOffset = some stop ∧
        offset < stop ∧ stop ≤ msg.bytes.length ∧
        ∀ (msg' : Buffer) (out₁ : Vector (Option UInt8) 256) (out₂ : Cells) (endOffset' : Option ℕ),
          (∀ i, offset ≤ i → i < stop → u8 msg'.bytes i = u8 msg.bytes i) →
          nsDnsDecodeName msg'.bytes msg'.bytes.length offset out₁.toList 256 = .ok (.ok,out₂,endOffset') →
          endOffset' = some stop := by
  obtain ⟨⟨status,out',endOffset⟩,he,hlen,ha⟩ := nsDnsDecodeName_agrees msg.fits offset
    (show 256 ≤ 2 ^ 32 by norm_num) (by norm_num) (show out.toList.length = 256 by simp)
  have hiff := @nsDnsDecodeName_ok_iff msg.bytes offset 256 (by norm_num)
  refine ⟨status,out',endOffset,he,?_,?_⟩
  · cases hm : Netscope.nsDnsDecodeName msg.bytes offset 256 with
    | error e =>
      rw [hm] at ha
      constructor
      · intro h
        exact absurd (ha.symm.trans h) (statusOf_ne_ok e)
      · rintro ⟨labels,pointers,stop,hc,hp,htext⟩
        have h := (hiff (dottedText labels) stop).mpr ⟨labels,pointers,hc,hp,by omega,rfl⟩
        rw [hm] at h
        cases h
    | ok m =>
      obtain ⟨text,stop⟩ := m
      rw [hm] at ha
      obtain ⟨labels,pointers,hc,hp,htext,_⟩ := (hiff text stop).mp hm
      exact ⟨fun _ => ⟨labels,pointers,stop,hc,hp,by omega⟩,fun _ => ha.1⟩
  · intro labels pointers stop hc hp htext
    have hm := (hiff (dottedText labels) stop).mpr ⟨labels,pointers,hc,hp,by omega,rfl⟩
    rw [hm] at ha
    obtain ⟨_,hstop,hout⟩ := ha
    refine ⟨hout,hstop,hc.stop_bounds.1,hc.stop_bounds.2,?_⟩
    intro msg' out₁ out₂ endOffset' hagree he'
    obtain ⟨r,he'',_,ha'⟩ := nsDnsDecodeName_agrees msg'.fits offset (show 256 ≤ 2 ^ 32 by norm_num) (by norm_num)
      (show out₁.toList.length = 256 by simp)
    obtain rfl : (ParseStatus.ok,out₂,endOffset') = r := by
      rw [he'] at he''
      exact Except.ok.inj he''
    cases hm' : Netscope.nsDnsDecodeName msg'.bytes offset 256 with
    | error e =>
      rw [hm'] at ha'
      exact absurd ha'.symm (statusOf_ne_ok e)
    | ok m =>
      obtain ⟨text',stop'⟩ := m
      rw [hm'] at ha'
      obtain ⟨labels',pointers',hc',_⟩ := (nsDnsDecodeName_ok_iff (show 64 < 256 by norm_num) text' stop').mp hm'
      exact ha'.2.1.trans (congrArg some (hc.stop_unique hc' hagree))

end Netscope.Checked
