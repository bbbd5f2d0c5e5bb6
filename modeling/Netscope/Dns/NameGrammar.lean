import Netscope.Model.Dns

/-! # The compressed name grammar

A name on the wire is a chain of labels and pointers ending at a zero byte. The
chain is stated over the message alone; the decoder is proved to accept exactly
the chains within its pointer and length limits and to write their dotted text.
-/
namespace Netscope.DnsName
open ByteString

/-- The value of the length byte at `pos`. -/
abbrev lengthByte (data : Bytes) (pos : ℕ) : ℕ := (u8 data pos).toNat

/-- The low fourteen bits of the two bytes at `pos`. -/
def jumpTarget (data : Bytes) (pos : ℕ) : ℕ := lengthByte data pos % 64 * 256 + lengthByte data (pos + 1)

/-- `NameChain data pos labels pointers stop`: the name written at `pos` spells `labels`
and follows `pointers` pointers; its bytes in place end just before `stop`. -/
inductive NameChain (data : Bytes) : ℕ → List Bytes → ℕ → ℕ → Prop where
  | root {pos : ℕ} (hp : pos < data.length) (h0 : lengthByte data pos = 0) :
      NameChain data pos [] 0 (pos + 1)
  | label {pos : ℕ} {labels : List Bytes} {pointers stop : ℕ}
      (h1 : 1 ≤ lengthByte data pos) (h63 : lengthByte data pos ≤ 63)
      (hl : pos + 1 + lengthByte data pos ≤ data.length)
      (rest : NameChain data (pos + 1 + lengthByte data pos) labels pointers stop) :
      NameChain data pos (chunk data (pos + 1) (lengthByte data pos) :: labels) pointers stop
  | pointer {pos : ℕ} {labels : List Bytes} {pointers stop : ℕ}
      (hp : pos + 2 ≤ data.length) (h : 192 ≤ lengthByte data pos)
      (rest : NameChain data (jumpTarget data pos) labels pointers stop) :
      NameChain data pos labels (pointers + 1) (pos + 2)

/-- The dotted text of a name; the root is a single dot. -/
def dottedText (labels : List Bytes) : Bytes := if labels = [] then [dot] else [dot].intercalate labels

/-! ## The chain in place -/

theorem NameChain.stop_bounds {data : Bytes} {pos pointers stop : ℕ} {labels : List Bytes}
    (h : NameChain data pos labels pointers stop) : pos < stop ∧ stop ≤ data.length := by
  induction h with
  | root hp h0 => omega
  | label h1 h63 hl rest ih => omega
  | pointer hp h rest ih => omega

theorem NameChain.labels_length {data : Bytes} {pos pointers stop : ℕ} {labels : List Bytes}
    (h : NameChain data pos labels pointers stop) : ∀ l ∈ labels, 1 ≤ l.length ∧ l.length ≤ 63 := by
  induction h with
  | root hp h0 => simp
  | @label pos labels pointers stop h1 h63 hl rest ih =>
    intro l hmem
    rcases List.mem_cons.mp hmem with rfl | hmem
    · rw [chunk_length hl]
      exact ⟨h1,h63⟩
    · exact ih l hmem
  | pointer hp h rest ih => exact ih

/-- The bytes in place decide where the name stops, whatever the pointers reach. -/
theorem NameChain.stop_unique {data data' : Bytes} {pos pointers stop pointers' stop' : ℕ}
    {labels labels' : List Bytes} (h : NameChain data pos labels pointers stop)
    (h' : NameChain data' pos labels' pointers' stop')
    (hagree : ∀ i, pos ≤ i → i < stop → u8 data' i = u8 data i) : stop' = stop := by
  induction h generalizing labels' pointers' stop' with
  | @root pos hp h0 =>
    have hb := hagree pos le_rfl (by omega)
    cases h' with
    | root => rfl
    | label h1 => simp only [lengthByte, hb] at h1 h0; omega
    | pointer _ h => simp only [lengthByte, hb] at h h0; omega
  | @label pos labels pointers stop h1 h63 hl rest ih =>
    have hs := rest.stop_bounds
    have hb := hagree pos le_rfl (by omega)
    cases h' with
    | root _ h0 => simp only [lengthByte, hb] at h1 h0; omega
    | label _ _ _ rest' =>
      simp only [lengthByte, hb] at rest'
      exact ih rest' (fun i hi hlt => hagree i (by omega) hlt)
    | pointer _ h => simp only [lengthByte, hb] at h h63; omega
  | @pointer pos labels pointers stop hp h rest ih =>
    have hb := hagree pos le_rfl (by omega)
    cases h' with
    | root _ h0 => simp only [lengthByte, hb] at h h0; omega
    | label _ h63 => simp only [lengthByte, hb] at h h63; omega
    | pointer => rfl

/-- A name has one spelling. -/
theorem NameChain.labels_unique {data : Bytes} {pos pointers stop pointers' stop' : ℕ} {labels labels' : List Bytes}
    (h : NameChain data pos labels pointers stop) (h' : NameChain data pos labels' pointers' stop') : labels' = labels := by
  induction h generalizing labels' pointers' stop' with
  | @root pos hp h0 =>
    cases h' with
    | root => rfl
    | label h1 => omega
    | pointer _ h => omega
  | @label pos labels pointers stop h1 h63 hl rest ih =>
    cases h' with
    | root _ h0 => omega
    | label _ _ _ rest' => rw [ih rest']
    | pointer _ h => omega
  | @pointer pos labels pointers stop hp h rest ih =>
    cases h' with
    | root _ h0 => omega
    | label _ h63 => omega
    | pointer _ _ rest' => exact ih rest'

/-! ## The text of a chain -/

theorem appendLabel_nil (label : Bytes) : appendLabel [] label = label := by simp [appendLabel]

theorem appendLabel_length {text : Bytes} (label : Bytes) (h : text ≠ []) :
    (appendLabel text label).length = text.length + 1 + label.length := by
  simp only [appendLabel, ne_eq, h, not_false_eq_true, ↓reduceIte, List.length_append, List.length_singleton]

theorem length_le_foldl_appendLabel (text : Bytes) (labels : List Bytes) :
    text.length ≤ (labels.foldl appendLabel text).length := by
  induction labels generalizing text with
  | nil => exact le_rfl
  | cons l labels ih =>
    refine le_trans ?_ (ih (appendLabel text l))
    unfold appendLabel
    split <;> simp

theorem foldl_appendLabel_of_ne_nil {text : Bytes} (labels : List Bytes) (h : text ≠ []) :
    labels.foldl appendLabel text = text ++ labels.flatMap (fun l => dot :: l) := by
  induction labels generalizing text with
  | nil => simp
  | cons l labels ih =>
    have hne : appendLabel text l ≠ [] := by simp [appendLabel, h]
    rw [List.foldl_cons, ih hne]
    simp [appendLabel, h]

/-- Appending the labels one by one spells the dotted text. -/
theorem finishName_foldl {labels : List Bytes} (h : ∀ l ∈ labels, 1 ≤ l.length) :
    finishName (labels.foldl appendLabel []) = dottedText labels := by
  cases labels with
  | nil => rfl
  | cons l labels =>
    have hl : l ≠ [] := by
      have := h l List.mem_cons_self
      exact List.ne_nil_of_length_pos this
    rw [List.foldl_cons, appendLabel_nil, foldl_appendLabel_of_ne_nil labels hl, dottedText,
      if_neg (by simp), intercalate_separator, finishName, if_neg]
    simp [hl]

theorem foldl_appendLabel_length {labels : List Bytes} (h : ∀ l ∈ labels, 1 ≤ l.length) (hne : labels ≠ []) :
    (labels.foldl appendLabel []).length = (dottedText labels).length := by
  rw [← finishName_foldl h]
  cases labels with
  | nil => exact absurd rfl hne
  | cons l labels =>
    have hl := h l List.mem_cons_self
    have hle := length_le_foldl_appendLabel (appendLabel [] l) labels
    rw [appendLabel_nil] at hle
    rw [finishName, if_neg]
    rw [List.foldl_cons, appendLabel_nil]
    omega

/-! ## The decoder against the grammar -/

theorem isPointer_iff (b : UInt8) : isPointer b = true ↔ 192 ≤ b.toNat := by
  revert b
  suffices h : ∀ b : BitVec 8, isPointer ⟨b⟩ = true ↔ 192 ≤ b.toNat from fun b => h b.toBitVec
  decide +kernel

theorem plainLength_iff (b : UInt8) : b &&& 0xC0 = 0 ↔ b.toNat ≤ 63 := by
  revert b
  suffices h : ∀ b : BitVec 8, (⟨b⟩ : UInt8) &&& 0xC0 = 0 ↔ b.toNat ≤ 63 from fun b => h b.toBitVec
  decide +kernel

theorem pointerTarget_eq (data : Bytes) (pos : ℕ) : pointerTarget data pos = jumpTarget data pos := by
  have h2 := (u8 data (pos + 1)).toNat_lt
  have hmask : ∀ n : ℕ, n &&& 0x3FFF = n % 2 ^ 14 := fun n => Nat.and_two_pow_sub_one_eq_mod n 14
  simp only [pointerTarget, jumpTarget, lengthByte, u16, UInt16.toNat_and, toNat_join16, UInt16.reduceToNat, hmask]
  omega

/-- Within its limits the loop accepts exactly the chains of the grammar. -/
theorem decodeNameLoop_sound {data : Bytes} {outLen pos : ℕ} {text : Bytes} {endOffset : Option ℕ} {jumps : ℕ}
    {text' : Bytes} {stop' : ℕ} (hj : jumps ≤ dnsMaxJumps) (ht : text.length < outLen)
    (he : decodeNameLoop data outLen pos text endOffset jumps = .ok (text',stop')) :
    ∃ labels pointers stop, NameChain data pos labels pointers stop ∧ jumps + pointers ≤ dnsMaxJumps ∧
      text' = labels.foldl appendLabel text ∧ text'.length < outLen ∧ stop' = endOffset.getD stop := by
  fun_induction decodeNameLoop data outLen pos text endOffset jumps with
  | case1 | case2 | case3 | case5 | case7 | case8 => simp at he
  | case4 pos text endOffset jumps hp lenByte hptr hp2 hjumps ih =>
    obtain ⟨labels,pointers,stop,hc,hle,rfl,hlen,rfl⟩ := ih (by omega) ht he
    rw [pointerTarget_eq] at hc
    refine ⟨labels,pointers+1,pos+2,.pointer (by simpa using hp2) ((isPointer_iff _).mp hptr) hc,by omega,rfl,hlen,rfl⟩
  | case6 pos text endOffset jumps hp lenByte hptr hres h0 =>
    obtain ⟨rfl,rfl⟩ : text = text' ∧ endOffset.getD (pos+1) = stop' := by simpa using he
    have h0' : lengthByte data pos = 0 := by simpa [lengthByte, lenByte] using congrArg UInt8.toNat h0
    exact ⟨[],0,pos+1,.root (by simpa using hp) h0',by omega,rfl,ht,rfl⟩
  | case9 pos text endOffset jumps hp lenByte hptr hres h0 hl hfit ih =>
    have h63 : lenByte.toNat ≤ 63 := (plainLength_iff lenByte).mp (by simpa using hres)
    have h1 : 1 ≤ lenByte.toNat := by
      rw [Nat.one_le_iff_ne_zero]
      intro h
      exact h0 (UInt8.toNat_inj.mp h)
    have hl' : pos + 1 + lenByte.toNat ≤ data.length := by simpa using hl
    have hlen' : (appendLabel text (chunk data (pos + 1) lenByte.toNat)).length < outLen := by
      have hle : (appendLabel text (chunk data (pos + 1) lenByte.toNat)).length ≤ text.length + lenByte.toNat + 1 := by
        by_cases htext : text = []
        · subst htext
          rw [appendLabel_nil, chunk_length hl']
          omega
        · rw [appendLabel_length _ htext, chunk_length hl']
          omega
      omega
    obtain ⟨labels,pointers,stop,hc,hle,rfl,hlen,rfl⟩ := ih hj hlen' he
    exact ⟨_,pointers,stop,.label h1 h63 hl' hc,hle,rfl,hlen,rfl⟩

/-- The length byte of a label neither marks a pointer nor ends the name. -/
theorem labelByte {data : Bytes} {pos : ℕ} (h1 : 1 ≤ lengthByte data pos) (h63 : lengthByte data pos ≤ 63) :
    isPointer (u8 data pos) = false ∧ u8 data pos &&& 0xC0 = 0 ∧ u8 data pos ≠ 0 := by
  refine ⟨?_,(plainLength_iff _).mpr h63,?_⟩
  · rw [Bool.eq_false_iff, ne_eq, isPointer_iff, Nat.not_le]
    exact lt_of_le_of_lt h63 (by norm_num)
  · intro h
    simp [lengthByte, h] at h1

/-- One iteration at a label. -/
theorem decodeNameLoop_label {data : Bytes} {outLen pos : ℕ} {text : Bytes} {endOffset : Option ℕ} {jumps : ℕ}
    (h1 : 1 ≤ lengthByte data pos) (h63 : lengthByte data pos ≤ 63)
    (hl : pos + 1 + lengthByte data pos ≤ data.length) (hfit : text.length + lengthByte data pos + 1 < outLen) :
    decodeNameLoop data outLen pos text endOffset jumps =
      decodeNameLoop data outLen (pos + 1 + lengthByte data pos)
        (appendLabel text (chunk data (pos + 1) (lengthByte data pos))) endOffset jumps := by
  obtain ⟨hptr,hres,h0⟩ := labelByte h1 h63
  have hp : pos + 1 ≤ data.length := by omega
  rw [decodeNameLoop]
  simp [hp, hptr, hres, h0, hl, Nat.not_le.mpr hfit]

/-- One iteration at a pointer. -/
theorem decodeNameLoop_pointer {data : Bytes} {outLen pos : ℕ} {text : Bytes} {endOffset : Option ℕ} {jumps : ℕ}
    (hp : pos + 2 ≤ data.length) (h : 192 ≤ lengthByte data pos) (hj : jumps + 1 ≤ dnsMaxJumps) :
    decodeNameLoop data outLen pos text endOffset jumps =
      decodeNameLoop data outLen (jumpTarget data pos) text (some (endOffset.getD (pos + 2))) (jumps + 1) := by
  have hptr : isPointer (u8 data pos) = true := (isPointer_iff _).mpr h
  have hp1 : pos + 1 ≤ data.length := by omega
  rw [decodeNameLoop]
  simp [hp, hp1, hptr, Nat.not_lt.mpr hj, pointerTarget_eq]

/-- The final iteration, at the zero byte. -/
theorem decodeNameLoop_root {data : Bytes} {outLen pos : ℕ} {text : Bytes} {endOffset : Option ℕ} {jumps : ℕ}
    (hp : pos < data.length) (h0 : lengthByte data pos = 0) :
    decodeNameLoop data outLen pos text endOffset jumps = .ok (text,endOffset.getD (pos + 1)) := by
  have hb : u8 data pos = 0 := UInt8.toNat_inj.mp h0
  have hp1 : pos + 1 ≤ data.length := hp
  rw [decodeNameLoop]
  simp [hp1, hb, isPointer]

/-- A label of a name that fits the buffer passes the check of the loop. -/
theorem label_fits {data : Bytes} {outLen pos : ℕ} {text : Bytes} {labels : List Bytes} (hout : 64 < outLen)
    (h63 : lengthByte data pos ≤ 63) (hl : pos + 1 + lengthByte data pos ≤ data.length)
    (hlen : ((chunk data (pos + 1) (lengthByte data pos) :: labels).foldl appendLabel text).length < outLen) :
    text.length + lengthByte data pos + 1 < outLen := by
  rw [List.foldl_cons] at hlen
  have hle := length_le_foldl_appendLabel (appendLabel text (chunk data (pos + 1) (lengthByte data pos))) labels
  by_cases htext : text = []
  · subst htext
    simp only [List.length_nil]
    omega
  · rw [appendLabel_length _ htext, chunk_length hl] at hle
    omega

theorem decodeNameLoop_complete {data : Bytes} {outLen pos pointers stop : ℕ} {labels : List Bytes}
    (hc : NameChain data pos labels pointers stop) {text : Bytes} {endOffset : Option ℕ} {jumps : ℕ}
    (hout : 64 < outLen) (hj : jumps + pointers ≤ dnsMaxJumps) (hlen : (labels.foldl appendLabel text).length < outLen) :
    decodeNameLoop data outLen pos text endOffset jumps =
      .ok (labels.foldl appendLabel text,endOffset.getD stop) := by
  induction hc generalizing text endOffset jumps with
  | root hp h0 => exact decodeNameLoop_root hp h0
  | @label pos labels pointers stop h1 h63 hl rest ih =>
    rw [decodeNameLoop_label h1 h63 hl (label_fits hout h63 hl hlen)]
    exact ih hj hlen
  | @pointer pos labels pointers stop hp h rest ih =>
    rw [decodeNameLoop_pointer hp h (by omega), ih (by omega) hlen]
    rfl

theorem NameChain.foldl_length_lt {data : Bytes} {pos pointers stop outLen : ℕ} {labels : List Bytes}
    (h : NameChain data pos labels pointers stop) (hout : 64 < outLen) (hlen : (dottedText labels).length < outLen) :
    (labels.foldl appendLabel []).length < outLen := by
  by_cases hne : labels = []
  · subst hne
    exact lt_trans (by simp) hout
  · rwa [foldl_appendLabel_length (fun l hm => (h.labels_length l hm).1) hne]

/-- The decoder accepts a name exactly when its chain keeps the limits, and then it
writes the dotted text and reports where the bytes in place stop. -/
theorem nsDnsDecodeName_ok_iff {data : Bytes} {offset outLen : ℕ} (hout : 64 < outLen) (text : Bytes) (stop : ℕ) :
    nsDnsDecodeName data offset outLen = .ok (text,stop) ↔
      ∃ labels pointers, NameChain data offset labels pointers stop ∧ pointers ≤ dnsMaxJumps ∧
        (dottedText labels).length < outLen ∧ text = dottedText labels := by
  have h0 : outLen ≠ 0 := by omega
  constructor
  · intro h
    rw [nsDnsDecodeName, if_neg h0] at h
    cases hl : decodeNameLoop data outLen offset [] none 0 with
    | error e => rw [hl] at h; cases h
    | ok r =>
      obtain ⟨text',stop'⟩ := r
      rw [hl] at h
      obtain ⟨rfl,rfl⟩ : finishName text' = text ∧ stop' = stop := by simpa using h
      obtain ⟨labels,pointers,stop,hc,hj,rfl,hlen,rfl⟩ := decodeNameLoop_sound (by simp) (by simp; omega) hl
      have hpos : ∀ l ∈ labels, 1 ≤ l.length := fun l hm => (hc.labels_length l hm).1
      refine ⟨labels,pointers,hc,by omega,?_,finishName_foldl hpos⟩
      by_cases hne : labels = []
      · subst hne
        simp [dottedText]
        omega
      · rwa [← foldl_appendLabel_length hpos hne]
  · rintro ⟨labels,pointers,hc,hj,hlen,rfl⟩
    have hpos : ∀ l ∈ labels, 1 ≤ l.length := fun l hm => (hc.labels_length l hm).1
    rw [nsDnsDecodeName, if_neg h0, decodeNameLoop_complete hc hout (by omega) (hc.foldl_length_lt hout hlen)]
    simp [finishName_foldl hpos]

end Netscope.DnsName
