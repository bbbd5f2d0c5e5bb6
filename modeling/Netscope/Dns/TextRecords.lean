import Netscope.Checked.DnsRecords
import Netscope.Library.LengthPrefixed

/-! # The text of a TXT record

The rdata of a TXT record is a sequence of length-prefixed strings. The renderer joins
the complete ones, as far as the buffer has room. Its second model here is run on a
memory of which the bytes of the rdata alone can be read.
-/
namespace Netscope.TextRecords
open ByteString PartialMemory LengthPrefixed

/-! ## The joined strings -/

section Joined
variable {data : Bytes} {rdataOffset rdlength : ℕ}

theorem rdata_take {pos n : ℕ} (hn : pos + n ≤ rdlength) :
    ((chunk data rdataOffset rdlength).drop pos).take n = chunk data (rdataOffset + pos) n := by
  rw [chunk, chunk, List.drop_take, List.take_take, List.drop_drop, Nat.min_eq_left (by omega)]

variable (hin : rdataOffset + rdlength ≤ data.length)
include hin

theorem rdata_drop {pos : ℕ} (hpos : pos < rdlength) : (chunk data rdataOffset rdlength).drop pos =
    u8 data (rdataOffset + pos) :: (chunk data rdataOffset rdlength).drop (pos + 1) := by
  have hlt : pos < (chunk data rdataOffset rdlength).length := by rwa [chunk_length hin]
  rw [List.drop_eq_getElem_cons hlt, u8_eq_getElem (by omega)]
  simp [chunk]

/-- The loop writes the strings from its position on, as far as there is room. -/
theorem formatTxtLoop_eq {outLen pos : ℕ} {out : Bytes} (hpos : pos ≤ rdlength) (hout : out.length < outLen) :
    formatTxtLoop data rdataOffset rdlength outLen pos out =
      out ++ (joined (completeStrings ((chunk data rdataOffset rdlength).drop pos))).take (outLen - 1 - out.length) := by
  revert hpos hout
  fun_induction formatTxtLoop data rdataOffset rdlength outLen pos out with
  | case1 pos out hroom segLen hover =>
    intro hpos hout
    have hlen : ((chunk data rdataOffset rdlength).drop (pos + 1)).length < segLen := by
      rw [List.length_drop, chunk_length hin]
      omega
    rw [rdata_drop hin hroom.1, completeStrings, if_neg (not_le.mpr hlen)]
    simp [joined]
  | case2 pos out hroom segLen hover copy ih =>
    intro hpos hout
    have hcopy : copy = min segLen (outLen - 1 - out.length) := by
      unfold copy
      split <;> omega
    have hlen : ((chunk data rdataOffset rdlength).drop (pos + 1)).length = rdlength - (pos + 1) := by
      rw [List.length_drop, chunk_length hin]
    have hsegment : (chunk data (rdataOffset + (pos + 1)) copy).length = copy := chunk_length (by omega)
    have hfit : segLen ≤ ((chunk data rdataOffset rdlength).drop (pos + 1)).length := by omega
    -- The segment is the first string, cut where the buffer ends.
    have htake : (((chunk data rdataOffset rdlength).drop (pos + 1)).take segLen).take (outLen - 1 - out.length) =
        chunk data (rdataOffset + (pos + 1)) copy := by
      rw [List.take_take, hcopy, Nat.min_comm]
      exact rdata_take (by omega)
    have hroomLeft : outLen - 1 - (out.length + copy) = outLen - 1 - out.length - segLen := by omega
    rw [ih (by omega) (by rw [List.length_append, hsegment]; omega), rdata_drop hin hroom.1, completeStrings,
      if_pos hfit, joined_cons, List.drop_drop, List.length_append, hsegment, List.take_append, htake,
      List.length_take_of_le hfit, hroomLeft, List.append_assoc]
  | case3 pos out hroom =>
    intro hpos hout
    rcases not_and_or.mp hroom with hend | hfull
    · have hdrop : (chunk data rdataOffset rdlength).drop pos = [] := by
        apply List.drop_of_length_le
        rw [chunk_length hin]
        omega
      rw [hdrop, completeStrings]
      simp [joined]
    · have hzero : outLen - 1 - out.length = 0 := by omega
      rw [hzero, List.take_zero, List.append_nil]

omit hin in
/-- The text is that of the joined strings, cut where the buffer ends. -/
theorem nsDnsFormatTxt_eq {length : UInt16} {outLen : ℕ} (hlength : rdataOffset + length.toNat ≤ data.length)
    (h1 : 1 ≤ outLen) : nsDnsFormatTxt data rdataOffset length outLen =
      some ((joined (completeStrings (chunk data rdataOffset length.toNat))).take (outLen - 1)) := by
  have hloop := @formatTxtLoop_eq data rdataOffset length.toNat hlength outLen 0 [] (Nat.zero_le _) h1
  rw [nsDnsFormatTxt, nsBoundsCheck_eq, decide_eq_true hlength, Bool.not_true, if_neg Bool.false_ne_true, hloop]
  rfl

end Joined

/-! ## The renderer on a partial memory -/

/-- A memory that holds the message, of which only the rdata can be read. -/
def readRdata (data : Bytes) (rdataOffset rdlength i : ℕ) : Exec UInt8 :=
  if rdataOffset ≤ i ∧ i < rdataOffset + rdlength then load data i else .error .readOutside

/-- The source of a `memcpy` of `n` bytes. -/
def readRange (read : ℕ → Exec UInt8) (i n : ℕ) : Exec Bytes := (List.range n).mapM fun k => read (i + k)

/-- The loop of `ns_dns_format_txt` on the bytes that `read` gives. -/
def formatTxtFrom (read : ℕ → Exec UInt8) (rdataOffset rdlength outLen : ℕ) : ℕ → ℕ → Cells → ℕ → Exec (Cells × ℕ)
  | 0, _, _, _ => throw .iterations
  | fuel + 1, pos, out, outPos => do
    if pos < rdlength ∧ (← sizeAdd outPos 1) < outLen then
      let segLen := (← read (← sizeAdd rdataOffset pos)).toNat
      let pos ← sizeAdd pos 1
      if (← sizeAdd pos segLen) > rdlength then return (out,outPos)
      let copy ← Checked.segmentCopy outLen outPos segLen
      let segment ← readRange read (← sizeAdd rdataOffset pos) copy
      let out ← storeRange out outPos segment
      formatTxtFrom read rdataOffset rdlength outLen fuel (← sizeAdd pos segLen) out (← sizeAdd outPos copy)
    else return (out,outPos)

def nsDnsFormatTxtFrom (read : ℕ → Exec UInt8) (length rdataOffset : ℕ) (rdlength : UInt16) (out : Cells)
    (outLen : ℕ) : Exec (Bool × Cells) := do
  if !(← Checked.nsBoundsCheck length rdataOffset rdlength.toNat) then return (false,out)
  let out ← store out 0 0
  let (out,outPos) ← formatTxtFrom read rdataOffset rdlength.toNat outLen (rdlength.toNat + 1) 0 out 0
  return (true,← store out outPos 0)

section Agreement
variable {data : Bytes} {read : ℕ → Exec UInt8} {rdataOffset rdlength outLen : ℕ}

theorem readRange_ok {i n : ℕ} (hin : i + n ≤ data.length) (hread : ∀ k < n, read (i + k) = .ok (u8 data (i + k))) :
    readRange read i n = .ok (chunk data i n) := by
  rw [readRange, mapM_ok (g := fun k => u8 data (i + k)) (fun k hk => hread k (List.mem_range.mp hk))]
  apply congrArg Except.ok
  apply List.ext_getElem
  · rw [List.length_map, List.length_range, chunk_length hin]
  · intro k hk hk'
    rw [List.length_map, List.length_range] at hk
    rw [List.getElem_map, List.getElem_range, u8_eq_getElem (by omega)]
    simp [chunk]

variable (hl : data.length < 2 ^ 64) (hin : rdataOffset + rdlength ≤ data.length) (h16 : rdlength < 2 ^ 16)
  (hread : ∀ i, rdataOffset ≤ i → i < rdataOffset + rdlength → read i = .ok (u8 data i))
include hl hin h16 hread

/-- The loop reads the rdata alone and leaves the cells behind its text as they were. -/
theorem formatTxtFrom_agrees {cells : Cells} (hout : outLen ≤ cells.length) {fuel pos : ℕ} {text : Bytes}
    (hpos : pos ≤ rdlength) (hfuel : rdlength < pos + fuel) (ht : text.length < outLen) (hle : text.length ≤ pos) :
    formatTxtFrom read rdataOffset rdlength outLen fuel pos (holding text (cells.drop text.length)) text.length =
      .ok (holding (formatTxtLoop data rdataOffset rdlength outLen pos text)
          (cells.drop (formatTxtLoop data rdataOffset rdlength outLen pos text).length),
        (formatTxtLoop data rdataOffset rdlength outLen pos text).length) := by
  induction fuel generalizing pos text with
  | zero => omega
  | succ fuel ih =>
    rw [formatTxtFrom, formatTxtLoop, sizeAdd_ok (show text.length + 1 < 2 ^ 64 by omega), ok_bind]
    by_cases hp : pos < rdlength ∧ text.length + 1 < outLen
    · have hseg := (u8 data (rdataOffset + pos)).toNat_lt
      rw [if_pos hp, if_pos hp, sizeAdd_ok (show rdataOffset + pos < 2 ^ 64 by omega), ok_bind,
        hread _ (by omega) (by omega), ok_bind, sizeAdd_ok (show pos + 1 < 2 ^ 64 by omega), ok_bind]
      dsimp only
      generalize (u8 data (rdataOffset + pos)).toNat = n at hseg
      rw [sizeAdd_ok (show pos + 1 + n < 2 ^ 64 by omega), ok_bind]
      by_cases hover : pos + 1 + n > rdlength
      · rw [if_pos hover, if_pos hover]
        rfl
      · obtain ⟨copy,hchecked,hcopy,hcopyLe,hcopyLt⟩ := Checked.segmentCopy_ok ht (show text.length + n < 2 ^ 64 by omega)
        rw [if_neg hover, if_neg hover, hchecked, ok_bind, hcopy]
        have hc : (chunk data (rdataOffset + (pos + 1)) copy).length = copy := chunk_length (by omega)
        have hrange := @readRange_ok data read (rdataOffset + (pos + 1)) copy (by omega)
          (fun k hk => hread _ (by omega) (by omega))
        have hstore := @storeRange_holding text (chunk data (rdataOffset + (pos + 1)) copy) (cells.drop text.length)
          (by rw [hc, List.length_drop]; omega)
        have hi := @ih (pos + 1 + n) (text ++ chunk data (rdataOffset + (pos + 1)) copy) (by omega) (by omega)
          (by rw [List.length_append]; omega) (by rw [List.length_append]; omega)
        rw [sizeAdd_ok (by omega), ok_bind, hrange, ok_bind, hstore, ok_bind, ok_bind, sizeAdd_ok (by omega), ok_bind,
          List.drop_drop, hc]
        rw [List.length_append, hc] at hi
        exact hi
    · rw [if_neg hp, if_neg hp]
      rfl

end Agreement

/-- Where the memory gives the rdata, the renderer leaves its text and a NUL. -/
theorem nsDnsFormatTxtFrom_eq {data : Bytes} {read : ℕ → Exec UInt8} {rdataOffset outLen : ℕ} {rdlength : UInt16}
    {out : Cells} {text : Bytes} (hl : data.length < 2 ^ 64) (hin : rdataOffset + rdlength.toNat ≤ data.length)
    (hread : ∀ i, rdataOffset ≤ i → i < rdataOffset + rdlength.toNat → read i = .ok (u8 data i))
    (hout : outLen ≤ out.length) (htext : nsDnsFormatTxt data rdataOffset rdlength outLen = some text)
    (hlt : text.length < outLen) :
    nsDnsFormatTxtFrom read data.length rdataOffset rdlength out outLen =
      .ok (true,holding (text ++ [0]) (out.drop (text.length + 1))) := by
  have hloop : formatTxtLoop data rdataOffset rdlength.toNat outLen 0 [] = text := by
    rw [nsDnsFormatTxt, nsBoundsCheck_eq, decide_eq_true hin, Bool.not_true, if_neg Bool.false_ne_true] at htext
    exact Option.some.inj htext
  have hfirst := @store_holding [] out 0 (by omega)
  have hcells : outLen ≤ (holding [0] (out.drop 1)).length := by
    rw [holding_length, List.length_drop, List.length_singleton]
    omega
  have hrun := @formatTxtFrom_agrees data read rdataOffset rdlength.toNat outLen hl hin rdlength.toNat_lt hread
    (holding [0] (out.drop 1)) hcells (rdlength.toNat + 1) 0 [] (Nat.zero_le _) (by omega) (by simp; omega) le_rfl
  rw [hloop] at hrun
  have hlast := @store_holding text ((holding [0] (out.drop 1)).drop text.length) 0 (by rw [List.length_drop]; omega)
  have hrest : ((holding [0] (out.drop 1)).drop text.length).drop 1 = out.drop (text.length + 1) := by
    simp [holding]
  simp only [List.nil_append, holding_nil, List.length_nil, List.drop_zero] at hfirst hrun
  rw [nsDnsFormatTxtFrom, Checked.nsBoundsCheck_eq, ok_bind, decide_eq_true hin, Bool.not_true,
    if_neg Bool.false_ne_true, hfirst, ok_bind, hrun, ok_bind]
  dsimp only
  rw [hlast, ok_bind, hrest]
  rfl

/-- On a memory of which only the rdata can be read, and in a buffer of at least `out_len`
bytes, of exactly so many as well, the renderer writes the joined strings, as many bytes of
them as fit before the NUL, and nothing behind the NUL. -/
theorem nsDnsFormatTxt_writes (msg : Buffer) (rdataOffset : ℕ) (rdlength : UInt16)
    (hin : rdataOffset + rdlength.toNat ≤ msg.bytes.length) (out : Cells) (outLen : ℕ) (h1 : 1 ≤ outLen)
    (hout : outLen ≤ out.length) :
    ∃ strings, IsLongest (chunk msg.bytes rdataOffset rdlength.toNat) strings ∧
      nsDnsFormatTxtFrom (readRdata msg.bytes rdataOffset rdlength.toNat) msg.bytes.length rdataOffset rdlength out outLen =
        .ok (true,holding ((joined strings).take (min (outLen - 1) (joined strings).length) ++ [0])
          (out.drop (min (outLen - 1) (joined strings).length + 1))) ∧
      nsDnsFormatTxt msg.bytes rdataOffset rdlength outLen =
        some ((joined strings).take (min (outLen - 1) (joined strings).length)) := by
  have htext := nsDnsFormatTxt_eq hin h1
  rw [List.take_eq_take_min] at htext
  have hread : ∀ i, rdataOffset ≤ i → i < rdataOffset + rdlength.toNat →
      readRdata msg.bytes rdataOffset rdlength.toNat i = .ok (u8 msg.bytes i) := by
    intro i hlow hhigh
    rw [readRdata, if_pos ⟨hlow,hhigh⟩, load_ok (by omega)]
  refine ⟨completeStrings (chunk msg.bytes rdataOffset rdlength.toNat),completeStrings_isLongest _,?_,htext⟩
  have hwrites := nsDnsFormatTxtFrom_eq msg.fits hin hread hout htext (by rw [List.length_take]; omega)
  rwa [List.length_take, Nat.min_eq_left (Nat.min_le_right _ _)] at hwrites

/-- A string of two bytes and one that is cut off, in a buffer for two bytes. -/
theorem nsDnsFormatTxt_writes_cutOff :
    ∃ strings, IsLongest (chunk [9,2,104,105,5,97,9] 1 5) strings ∧
      nsDnsFormatTxtFrom (readRdata [9,2,104,105,5,97,9] 1 5) 7 1 5 (fresh 4) 2 =
        .ok (true,holding ((joined strings).take (min (2 - 1) (joined strings).length) ++ [0])
          ((fresh 4).drop (min (2 - 1) (joined strings).length + 1))) ∧
      nsDnsFormatTxt [9,2,104,105,5,97,9] 1 5 2 =
        some ((joined strings).take (min (2 - 1) (joined strings).length)) :=
  nsDnsFormatTxt_writes ⟨[9,2,104,105,5,97,9],by decide⟩ 1 5 (by decide) (fresh 4) 2 (by decide) (by decide)

end Netscope.TextRecords
