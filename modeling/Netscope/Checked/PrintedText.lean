import Netscope.Checked.Output
import Netscope.Text.TerminalOutput

/-! # The text buffers of the printer

Every formatting function and every round of the hex dump stays inside its buffer and
leaves the text of the functional model there.
-/
namespace Netscope.Checked
open ByteString PartialMemory Numerals ByteClasses TerminalOutput

/-! ## Buffers -/

/-- A `char` array of a fixed size whose first bytes are `text`. -/
def Begins (size : ℕ) (text : Bytes) (buf : Cells) : Prop := buf.length = size ∧ ∃ rest, buf = holding text rest

section Buffers
variable {size : ℕ} {text : Bytes} {buf : Cells}

theorem begins_nil (h : buf.length = size) : Begins size [] buf := ⟨h,buf,rfl⟩

theorem Holds.begins (h : Holds size text buf) : Begins size text buf := by
  obtain ⟨hlen,rest,rfl⟩ := h
  exact ⟨hlen,some 0 :: rest,by simp [holding]⟩

theorem Holds.length_lt (h : Holds size text buf) : text.length < size := by
  obtain ⟨hlen,rest,rfl⟩ := h
  rw [holding_length, List.length_append, List.length_singleton] at hlen
  omega

/-- A zeroed array holds the empty string. -/
theorem zeroed_holds (h : 0 < size) : Holds size [] (zeroed size) := by
  obtain ⟨n,rfl⟩ := Nat.exists_eq_succ_of_ne_zero h.ne'
  exact ⟨zeroed_length _,zeroed n,rfl⟩

theorem Begins.store (h : Begins size text buf) (hlt : text.length < size) (b : UInt8) :
    ∃ buf', PartialMemory.store buf text.length b = .ok buf' ∧ Begins size (text ++ [b]) buf' := by
  obtain ⟨hlen,rest,rfl⟩ := h
  rw [holding_length] at hlen
  refine ⟨_,store_holding text b (by omega),?_,_,rfl⟩
  rw [holding_length, List.length_append, List.length_singleton, List.length_drop]
  omega

/-- A text printed behind the first bytes is cut to the room there is. -/
theorem Begins.printInto (h : Begins size text buf) (hlt : text.length < size) (s : Bytes) :
    ∃ buf', PartialMemory.printInto buf text.length (size - text.length) s = .ok buf' ∧
      Holds size (text ++ snprintf (size - text.length) s) buf' := by
  obtain ⟨hlen,rest,rfl⟩ := h
  rw [holding_length] at hlen
  obtain ⟨rest',hprint,hsum,rest'',rfl⟩ := @printInto_holding text s rest (size - text.length) (by omega) (by omega)
  refine ⟨_,hprint,?_,rest'',by simp [holding, snprintf]⟩
  rw [holding_length, ← hsum]
  exact hlen

theorem cString_of_clean (h : Within Clean text) : cString text = text := by
  rw [cString_eq_self_iff]
  intro hzero
  rcases h 0 hzero with h | h
  · cases h
  · exact absurd h (by decide)

/-- A string without control characters is read back whole. -/
theorem Holds.loadString (h : Holds size text buf) (hclean : Within Clean text) :
    PartialMemory.loadString buf = .ok text := by rw [loadString_holds h, cString_of_clean hclean]

end Buffers

/-! ## Formatting -/

section Formatting
variable {size : ℕ} (h0 : 0 < size) {buf : Cells} (hbuf : buf.length = size)
include h0 hbuf

theorem nsFormatMac_holds (mac : MacAddress) :
    ∃ buf', nsFormatMac mac buf size = .ok buf' ∧ Holds size (Netscope.nsFormatMac mac size) buf' := by
  have hbyte : ∀ (i : ℕ) (hi : i < 6), u8 mac.toList i = mac[i] := by
    intro i hi
    rw [u8_eq_getElem (by rwa [Vector.length_toList]), Vector.getElem_toList]
  unfold nsFormatMac Netscope.nsFormatMac
  simp only [hbyte, Nat.reduceLT]
  exact printInto_holds h0 hbuf _

theorem nsFormatIpv4_holds (addr : Ipv4Address) :
    ∃ buf', nsFormatIpv4 addr buf size = .ok buf' ∧ Holds size (Netscope.nsFormatIpv4 addr size) buf' :=
  printInto_holds h0 hbuf _

theorem nsFormatIpv6_holds (addr : Ipv6Address) :
    ∃ buf', nsFormatIpv6 addr.toList buf size = .ok buf' ∧ Holds size (Netscope.nsFormatIpv6 addr size) buf' := by
  have hall : slice addr.toList 0 16 = addr := by
    have h := slice_toList addr []
    rwa [List.append_nil] at h
  have hagrees := @nsFormatIpv6_agrees addr.toList (by rw [Vector.length_toList]) buf size h0 hbuf
  rwa [hall] at hagrees

theorem nsDnsTypeName_eq (type : UInt16) : nsDnsTypeName type buf size = .ok (Netscope.nsDnsTypeName type size) := by
  obtain ⟨buf',hprint,hholds⟩ := printInto_holds h0 hbuf (ascii "TYPE" ++ decimal type.toNat)
  have hclean : Within Clean (snprintf size (ascii "TYPE" ++ decimal type.toNat)) :=
    clean_snprintf (within_append.mpr ⟨by decide,clean_decimal _⟩) _
  unfold nsDnsTypeName Netscope.nsDnsTypeName
  simp only [hprint, ok_bind, hholds.loadString hclean]
  split_ifs <;> rfl

end Formatting

section Flags
variable (flags : UInt8) {size : ℕ} (hsize : size < 2 ^ 64)
include hsize

theorem tcpFlagsLoop_holds (names : List (UInt8 × Bytes)) {text : Bytes} {buf : Cells} (h : Holds size text buf)
    (first : Bool) :
    ∃ buf', tcpFlagsLoop flags size names buf text.length first =
        .ok (buf',(Netscope.tcpFlagsLoop flags size names text first).2) ∧
      Holds size (Netscope.tcpFlagsLoop flags size names text first).1 buf' := by
  induction names generalizing text buf first with
  | nil => exact ⟨buf,rfl,h⟩
  | cons entry names ih =>
    obtain ⟨bit,name⟩ := entry
    have hlt := h.length_lt
    unfold tcpFlagsLoop Netscope.tcpFlagsLoop
    by_cases hbit : flags &&& bit = 0
    · simp only [hbit, ↓reduceIte]
      exact ih h first
    · generalize (if first then [] else [comma]) ++ name = piece
      obtain ⟨buf',hprint,hholds⟩ := h.begins.printInto hlt piece
      simp only [hbit, ↓reduceIte, sizeSub_ok hlt.le, ok_bind, hprint]
      by_cases hcut : piece.length ≥ size - text.length
      · simp only [hcut, ↓reduceIte]
        exact ⟨buf',rfl,hholds⟩
      · rw [snprintf_of_lt (Nat.not_le.mp hcut)] at hholds
        have hnext := ih hholds false
        rw [List.length_append] at hnext
        simp only [hcut, ↓reduceIte, sizeAdd_ok (show text.length + piece.length < 2 ^ 64 by omega), ok_bind]
        exact hnext

theorem nsTcpFlagsToString_holds (h0 : 0 < size) {buf : Cells} (hbuf : buf.length = size) :
    ∃ buf', nsTcpFlagsToString flags buf size = .ok buf' ∧ Holds size (Netscope.nsTcpFlagsToString flags size) buf' := by
  obtain ⟨buf₁,hstore,hempty⟩ := (begins_nil hbuf).store h0 0
  obtain ⟨buf₂,hloop,hholds⟩ := tcpFlagsLoop_holds flags hsize tcpFlagNames (show Holds size [] buf₁ from hempty) true
  rw [List.length_nil] at hstore hloop
  unfold nsTcpFlagsToString Netscope.nsTcpFlagsToString
  simp only [hstore, hloop, ok_bind]
  split
  · exact printInto_holds h0 hholds.1 _
  · exact ⟨buf₂,rfl,hholds⟩

end Flags

/-! ## The hex dump -/

/-- The line being written and the position behind it, with room for a NUL. -/
structure LineAt (line : Bytes) (s : Cells × ℕ) : Prop where
  pos : s.2 = line.length
  room : line.length < dumpLineSize
  begins : Begins dumpLineSize line s.1

section Line
variable {line : Bytes} {s : Cells × ℕ}

theorem appendLine_ok (h : LineAt line s) (text : Bytes) :
    ∃ s', appendLine s.1 dumpLineSize s.2 text = .ok s' ∧ LineAt (Netscope.appendLine dumpLineSize line text) s' := by
  have hroom := h.room
  obtain ⟨buf,hprint,hholds⟩ := h.begins.printInto hroom text
  have hlen : (line ++ snprintf (dumpLineSize - line.length) text).length =
      line.length + min (dumpLineSize - line.length - 1) text.length := by
    rw [List.length_append, snprintf, List.length_take]
  have hat : LineAt (line ++ snprintf (dumpLineSize - line.length) text)
      (buf,line.length + min (dumpLineSize - line.length - 1) text.length) :=
    ⟨hlen.symm,hholds.length_lt,hholds.begins⟩
  unfold appendLine Netscope.appendLine
  rw [h.pos]
  simp only [if_neg (Nat.not_le.mpr hroom), sizeSub_ok hroom.le, ok_bind, hprint]
  by_cases hempty : text.length = 0
  · rw [if_pos hempty]
    rw [hempty, Nat.min_zero, Nat.add_zero] at hat
    exact ⟨_,rfl,hat⟩
  · rw [if_neg hempty]
    have hadd : line.length + min (dumpLineSize - line.length - 1) text.length < 2 ^ 64 := by
      have hsize : dumpLineSize = 128 := rfl
      omega
    by_cases hfits : text.length < dumpLineSize - line.length
    · rw [min_eq_right (by omega)] at hat hadd
      rw [if_pos hfits, pure_eq_ok, ok_bind, sizeAdd_ok hadd]
      exact ⟨_,rfl,hat⟩
    · rw [min_eq_left (by omega)] at hat hadd
      rw [if_neg hfits, sizeSub_ok (by omega), ok_bind, sizeAdd_ok hadd]
      exact ⟨_,rfl,hat⟩

theorem pushByte_ok (h : LineAt line s) {c : Exec UInt8} {b : UInt8} (hc : c = .ok b) :
    ∃ s', pushByte s c = .ok s' ∧ LineAt (Netscope.pushByte line b) s' := by
  unfold pushByte Netscope.pushByte
  rw [h.pos, hc]
  by_cases hroom : line.length + 1 < dumpLineSize
  · obtain ⟨buf,hstore,hbegins⟩ := h.begins.store h.room b
    have hadd : line.length + 1 < 2 ^ 64 := hroom.trans (by norm_num)
    simp only [if_pos hroom, hstore, ok_bind, sizeAdd_ok hadd]
    exact ⟨_,rfl,by rw [List.length_append, List.length_singleton],by rwa [List.length_append],hbegins⟩
  · rw [if_neg hroom, if_neg hroom]
    exact ⟨s,rfl,h⟩

/-- A full line takes no more bytes. -/
theorem foldl_pushByte_full (hfull : ¬ line.length + 1 < dumpLineSize) (bytes : Bytes) :
    bytes.foldl Netscope.pushByte line = line := by
  induction bytes with
  | nil => rfl
  | cons b bytes ih => rw [List.foldl_cons, Netscope.pushByte, if_neg hfull, ih]

theorem chunk_succ {data : Bytes} {k : ℕ} (h : k < data.length) (n : ℕ) :
    chunk data k (n + 1) = u8 data k :: chunk data (k + 1) n := by
  rw [chunk, List.drop_eq_getElem_cons h, List.take_succ_cons, u8_eq_getElem h]
  rfl

section Data
variable {data : Bytes} (hdata : data.length + 16 ≤ 2 ^ 64) {offset : ℕ}
include hdata

theorem columnPart_ok (i : ℕ) :
    columnPart data offset (chunk data offset 16).length i =
      .ok (if i < (chunk data offset 16).length then hex2 (u8 (chunk data offset 16) i) ++ [32] else ascii "   ") := by
  unfold columnPart
  by_cases hi : i < (chunk data offset 16).length
  · have hin : offset + i < data.length := by
      rw [chunk, List.length_take, List.length_drop] at hi
      omega
    have hbyte : u8 (chunk data offset 16) i = u8 data (offset + i) := by
      rw [u8_eq_getElem hi, u8_eq_getElem hin]
      simp [chunk]
    simp only [if_pos hi, sizeAdd_ok (show offset + i < 2 ^ 64 by omega), load_ok hin, ok_bind, hbyte]
    rfl
  · rw [if_neg hi, if_neg hi]
    rfl

theorem dumpColumn_ok (h : LineAt line s) (i : ℕ) :
    ∃ s', dumpColumn data offset (chunk data offset 16).length s i = .ok s' ∧
      LineAt (Netscope.dumpColumn (chunk data offset 16) line i) s' := by
  unfold dumpColumn Netscope.dumpColumn
  rw [columnPart_ok hdata]
  obtain ⟨s₁,happend,hat⟩ := appendLine_ok h
    (if i < (chunk data offset 16).length then hex2 (u8 (chunk data offset 16) i) ++ [32] else ascii "   ")
  simp only [ok_bind, happend]
  split
  · exact appendLine_ok hat [32]
  · exact ⟨s₁,rfl,hat⟩

theorem dumpGutter_ok (h : LineAt line s) {i remaining : ℕ} (hin : offset + i + remaining ≤ data.length) :
    ∃ s', dumpGutter data offset remaining i s = .ok s' ∧
      LineAt (((chunk data (offset + i) remaining).map gutterByte).foldl Netscope.pushByte line) s' := by
  induction remaining generalizing line s i with
  | zero => exact ⟨s,rfl,h⟩
  | succ remaining ih =>
    unfold dumpGutter
    rw [h.pos]
    by_cases hroom : line.length + 1 < dumpLineSize
    · have hbyte : (do return gutterByte (← load data (← sizeAdd offset i)) : Exec UInt8) =
          .ok (gutterByte (u8 data (offset + i))) := by
        rw [sizeAdd_ok (by omega), ok_bind, load_ok (by omega)]
        rfl
      obtain ⟨s₁,hpush,hat⟩ := pushByte_ok h hbyte
      rw [if_pos hroom, hpush, ok_bind, chunk_succ (by omega), List.map_cons, List.foldl_cons]
      exact ih hat (by omega)
    · rw [if_neg hroom, foldl_pushByte_full hroom]
      exact ⟨s,rfl,h⟩

/-- One round writes the line of the model, whatever the buffer held before. -/
theorem dumpLine_holds (hoffset : offset < data.length) {buf : Cells} (hbuf : buf.length = dumpLineSize) :
    ∃ buf', dumpLine data offset (chunk data offset 16).length buf = .ok buf' ∧
      Holds dumpLineSize (Netscope.dumpLine data offset) buf' := by
  have hstart : LineAt [] (buf,0) := ⟨rfl,by decide,begins_nil hbuf⟩
  have hin : offset + 0 + (chunk data offset 16).length ≤ data.length := by
    rw [chunk, List.length_take, List.length_drop]
    omega
  obtain ⟨s₁,h₁,hat₁⟩ := appendLine_ok hstart (padLeft 48 4 (hex offset) ++ [32,32])
  obtain ⟨s₂,h₂,hat₂⟩ := foldlM_related (List.range 16) hat₁ fun line s i _ h => @dumpColumn_ok line s data hdata offset h i
  obtain ⟨s₃,h₃,hat₃⟩ := appendLine_ok hat₂ [32]
  obtain ⟨s₄,h₄,hat₄⟩ := dumpGutter_ok hdata hat₃ hin
  obtain ⟨s₅,h₅,hat₅⟩ := pushByte_ok hat₄ (show (pure newline : Exec UInt8) = .ok newline from rfl)
  obtain ⟨buf',hstore,hbegins⟩ := hat₅.begins.store hat₅.room 0
  have hchunk : chunk data offset (chunk data offset 16).length = chunk data offset 16 := by
    rw [chunk, chunk, List.length_take, ← List.take_eq_take_min]
  unfold dumpLine
  rw [h₁, ok_bind, h₂, ok_bind, h₃, ok_bind, h₄, ok_bind, h₅, ok_bind, hat₅.pos, hstore]
  rw [Nat.add_zero, hchunk] at hbegins
  exact ⟨buf',rfl,hbegins⟩

theorem dumpLoop_eq {rounds : ℕ} (hrounds : data.length ≤ offset + 16 * rounds) {buf : Cells}
    (hbuf : buf.length = dumpLineSize) :
    dumpLoop data data.length rounds offset buf = .ok (dumpLines data offset).flatten := by
  induction rounds generalizing offset buf with
  | zero =>
    have hend : ¬ offset < data.length := by omega
    rw [dumpLoop, if_neg hend, dumpLines, if_neg hend]
    rfl
  | succ rounds ih =>
    rw [dumpLoop, dumpLines]
    by_cases hoffset : offset < data.length
    · obtain ⟨buf',hline,hholds⟩ := dumpLine_holds hdata hoffset hbuf
      have hcount : (if data.length - offset < 16 then data.length - offset else 16) = (chunk data offset 16).length := by
        rw [chunk, List.length_take, List.length_drop]
        split <;> omega
      rw [if_pos hoffset, if_pos hoffset, sizeSub_ok hoffset.le, ok_bind, hcount, hline, ok_bind,
        hholds.loadString (clean_dumpLine data offset), ok_bind, sizeAdd_ok (by omega), ok_bind,
        ih (by omega) hholds.1]
      rfl
    · rw [if_neg hoffset, if_neg hoffset]
      rfl

/-- The dump makes at most one round for each sixteen bytes and one more. -/
theorem nsHexDumpFile_eq : nsHexDumpFile data data.length = .ok (Netscope.nsHexDumpFile data) :=
  dumpLoop_eq hdata (by omega) (fresh_length _)

end Data

end Line

end Netscope.Checked
