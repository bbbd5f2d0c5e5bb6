import Netscope.Library.AddressGrammar
import Netscope.Library.Callbacks
import Netscope.Text.TerminalOutput

/-! # The hex dump

Every line is written into a buffer of 128 bytes by some twenty appends that clamp. None
of them ever does: the same code over appends that fail instead of clamping gives the
same lines, and from each line the dumped bytes can be read back.
-/
namespace Netscope.HexDump
open ByteString Numerals ByteClasses Callbacks
open AddressGrammar (hexValue)

abbrev blank : UInt8 := 32

/-! ## Reading a line -/

/-- The bytes of a hex column: pairs of digits with any blanks between them. -/
def readColumn : Bytes → Option Bytes
  | [] => some []
  | [c] => if c = blank then some [] else none
  | c :: d :: rest =>
    if c = blank then readColumn (d :: rest)
    else do
      let hi ← hexValue c
      let lo ← hexValue d
      let bs ← readColumn rest
      return UInt8.ofNat (16 * hi + lo) :: bs

/-- The character of the gutter for one byte. -/
def shown (c : UInt8) : UInt8 := if 0x20 ≤ c ∧ c ≤ 0x7e then c else dot

/-- The three parts of a line. -/
structure Parts where
  digits : Bytes
  column : Bytes
  gutter : Bytes

/-- What stands in front of the gutter. -/
def Parts.head (p : Parts) : Bytes := p.digits ++ [blank,blank] ++ p.column ++ [blank]

def Parts.line (p : Parts) : Bytes := p.head ++ p.gutter ++ [newline]

/-- The parts are those of the line for `bytes` at `offset`. -/
structure IsLine (bytes : Bytes) (offset : ℕ) (p : Parts) : Prop where
  width : 4 ≤ p.digits.length
  digits : ∀ c ∈ p.digits, (hexValue c).isSome
  offset : value 16 p.digits = offset
  column : readColumn p.column = some bytes
  gutter : p.gutter = bytes.map shown
  gutterColumn : p.head.length = p.digits.length + 52

@[simp] theorem readColumn_blank (s : Bytes) : readColumn (blank :: s) = readColumn s := by
  cases s with
  | nil => rfl
  | cons c s => rw [readColumn, if_pos rfl]

theorem hex2_digits (b : UInt8) : hex2 b = [digitByte (b.toNat / 16),digitByte (b.toNat % 16)] := by
  have hb := b.toNat_lt
  by_cases h : b.toNat < 16
  · rw [hex2, hex, numeral_of_lt h, Nat.div_eq_of_lt h, Nat.mod_eq_of_lt h]
    rfl
  · have hsplit : b.toNat = 16 * (b.toNat / 16) + b.toNat % 16 := (Nat.div_add_mod _ _).symm
    have hhi : 0 < b.toNat / 16 := Nat.div_pos (by omega) (by norm_num)
    have htext : hex b.toNat = [digitByte (b.toNat / 16),digitByte (b.toNat % 16)] := by
      rw [hex, hsplit, numeral_append (by norm_num) hhi (Nat.mod_lt _ (by norm_num)), numeral_of_lt (by omega)]
      simp only [List.singleton_append, Nat.mul_add_mod, Nat.mod_mod]
      congr 3
    rw [hex2, htext]
    rfl

theorem readColumn_hex2 (b : UInt8) (s : Bytes) : readColumn (hex2 b ++ s) = (readColumn s).map (b :: ·) := by
  have hdigit : ∀ d < 16, digitByte d ≠ blank ∧ hexValue (digitByte d) = some d := by decide
  have hb := b.toNat_lt
  have hhi := hdigit (b.toNat / 16) (by omega)
  have hlo := hdigit (b.toNat % 16) (by omega)
  rw [hex2_digits, List.cons_append, List.cons_append, List.nil_append, readColumn, if_neg hhi.1, hhi.2, hlo.2]
  cases readColumn s with
  | none => rfl
  | some bs =>
    have hbyte : UInt8.ofNat (16 * (b.toNat / 16) + b.toNat % 16) = b := by
      rw [Nat.div_add_mod, UInt8.ofNat_toNat]
    change some (UInt8.ofNat (16 * (b.toNat / 16) + b.toNat % 16) :: bs) = some (b :: bs)
    rw [hbyte]

/-! ## The lines without a limit -/

/-- The column of one byte position. -/
def columnCell (bytes : Bytes) (i : ℕ) : Bytes :=
  (if i < bytes.length then hex2 (u8 bytes i) ++ [blank] else ascii "   ") ++ if i = 7 then [blank] else []

def columnText (bytes : Bytes) (start n : ℕ) : Bytes := (List.range' start n).flatMap (columnCell bytes)

theorem columnText_succ (bytes : Bytes) (start n : ℕ) :
    columnText bytes start (n + 1) = columnCell bytes start ++ columnText bytes (start + 1) n := by
  rw [columnText, List.range'_succ, List.flatMap_cons, ← columnText]

theorem columnPart_length (bytes : Bytes) (i : ℕ) :
    (if i < bytes.length then hex2 (u8 bytes i) ++ [blank] else ascii "   ").length = 3 := by
  split
  · rw [hex2_digits]
    rfl
  · rfl

theorem columnCell_length (bytes : Bytes) (i : ℕ) : (columnCell bytes i).length = if i = 7 then 4 else 3 := by
  rw [columnCell, List.length_append, columnPart_length]
  split <;> rfl

theorem columnText_length (bytes : Bytes) : (columnText bytes 0 16).length = 49 := by
  simp only [columnText, List.length_flatMap, columnCell_length]
  rfl

theorem readColumn_cell (bytes : Bytes) (i : ℕ) (s : Bytes) :
    readColumn (columnCell bytes i ++ s) =
      if i < bytes.length then (readColumn s).map (u8 bytes i :: ·) else readColumn s := by
  have hgap : ∀ s, readColumn ((if i = 7 then [blank] else []) ++ s) = readColumn s := by
    intro s
    split
    · exact readColumn_blank s
    · rfl
  rw [columnCell]
  split
  · rw [List.append_assoc, List.append_assoc, readColumn_hex2, List.singleton_append, readColumn_blank, hgap]
  · rw [List.append_assoc, show ascii "   " = [blank,blank,blank] from rfl, List.cons_append, readColumn_blank,
      List.cons_append, readColumn_blank, List.cons_append, readColumn_blank, List.nil_append, hgap]

/-- The column gives its bytes back. -/
theorem readColumn_columnText (bytes : Bytes) (start n : ℕ) :
    readColumn (columnText bytes start n) = some ((bytes.drop start).take n) := by
  induction n generalizing start with
  | zero => rw [List.take_zero]; rfl
  | succ n ih =>
    rw [columnText_succ, readColumn_cell, ih]
    split
    · rename_i hin
      rw [List.drop_eq_getElem_cons hin, List.take_succ_cons, u8_eq_getElem hin]
      rfl
    · rename_i hout
      rw [List.drop_eq_nil_of_le (by omega), List.drop_eq_nil_of_le (by omega), List.take_nil, List.take_nil]

/-- The parts of the line for `bytes` at `offset`, and nothing cut off. -/
def lineParts (bytes : Bytes) (offset : ℕ) : Parts where
  digits := padLeft 48 4 (hex offset)
  column := columnText bytes 0 16
  gutter := bytes.map gutterByte

theorem value_padLeft (n : ℕ) (s : Bytes) : value 16 (padLeft 48 n s) = value 16 s := by
  unfold padLeft
  induction n - s.length with
  | zero => rfl
  | succ k ih =>
    rw [List.replicate_succ, List.cons_append, value, List.foldl_cons]
    exact ih

theorem gutterByte_eq_shown (c : UInt8) : gutterByte c = shown c := by
  have hlt : c < 0x7f ↔ c ≤ 0x7e := by
    rw [UInt8.lt_iff_toNat_lt, UInt8.le_iff_toNat_le]
    exact Nat.lt_succ_iff
  unfold gutterByte shown
  simp only [ge_iff_le, hlt]

/-- The number of a line is written in hexadecimal digits. -/
theorem within_digits (offset : ℕ) : Within (fun c => (hexValue c).isSome) (padLeft 48 4 (hex offset)) := by
  have hdigit : ∀ d < 16, (hexValue (digitByte d)).isSome = true := by decide
  exact Within.padLeft (forall_mem_numeral (by norm_num) hdigit) (hdigit 0 (by norm_num)) 4

theorem lineParts_isLine {bytes : Bytes} (h16 : bytes.length ≤ 16) (offset : ℕ) :
    IsLine bytes offset (lineParts bytes offset) where
  width := by
    simp only [lineParts, padLeft, List.length_append, List.length_replicate]
    omega
  digits := within_digits offset
  offset := by
    rw [lineParts, value_padLeft]
    exact value_numeral (by norm_num) le_rfl offset
  column := by
    rw [lineParts, readColumn_columnText, List.drop_zero, List.take_of_length_le h16]
  gutter := by
    rw [lineParts]
    exact List.map_congr_left (fun c _ => gutterByte_eq_shown c)
  gutterColumn := by
    simp only [Parts.head, lineParts, List.length_append, columnText_length, List.length_cons, List.length_nil]

/-! ## Appends that never clamp -/

/-- The two ways in which a line grows. -/
structure LineSteps (m : Type → Type) where
  append (line text : Bytes) : m Bytes
  push (line : Bytes) (c : UInt8) : m Bytes

def columnWith {m : Type → Type} [Monad m] (steps : LineSteps m) (bytes line : Bytes) (i : ℕ) : m Bytes := do
  let line ← steps.append line (if i < bytes.length then hex2 (u8 bytes i) ++ [32] else ascii "   ")
  if i = 7 then steps.append line [32] else return line

/-- One line of `ns_hex_dump` over exchangeable appends. -/
def dumpLineWith {m : Type → Type} [Monad m] (steps : LineSteps m) (data : Bytes) (offset : ℕ) : m Bytes := do
  let bytes := chunk data offset 16
  let line ← steps.append [] (padLeft 48 4 (hex offset) ++ [32,32])
  let line ← (List.range 16).foldlM (columnWith steps bytes) line
  let line ← steps.append line [32]
  let line ← bytes.foldlM (fun line c => steps.push line (gutterByte c)) line
  steps.push line newline

def modelSteps : LineSteps Id := ⟨appendLine dumpLineSize,pushByte⟩

/-- Appends that fail where those of the source clamp or skip. -/
def strictSteps : LineSteps Option where
  append line text := if line.length + text.length < dumpLineSize then some (line ++ text) else none
  push line c := if line.length + 1 < dumpLineSize then some (line ++ [c]) else none

/-- With room for a text and its NUL the appends put down the whole text. -/
structure LineSteps.Agree {m : Type → Type} [Monad m] (steps : LineSteps m) : Prop where
  append : ∀ line text, line.length + text.length < dumpLineSize → steps.append line text = pure (line ++ text)
  push : ∀ line c, line.length + 1 < dumpLineSize → steps.push line c = pure (line ++ [c])

theorem modelSteps_agree : modelSteps.Agree where
  append line text h := by
    change appendLine dumpLineSize line text = line ++ text
    rw [appendLine, if_neg (by omega), snprintf_of_lt (by omega)]
  push line c h := if_pos h

theorem strictSteps_agree : strictSteps.Agree := ⟨fun _ _ h => if_pos h,fun _ _ h => if_pos h⟩

section Agree
variable {m : Type → Type} [Monad m] [LawfulMonad m] {steps : LineSteps m} (hsteps : steps.Agree)
include hsteps

theorem columnWith_eq (bytes : Bytes) {line : Bytes} (i : ℕ) (hroom : line.length + 4 < dumpLineSize) :
    columnWith steps bytes line i = pure (line ++ columnCell bytes i) := by
  have hcell : (if i < bytes.length then hex2 (u8 bytes i) ++ [32] else ascii "   ").length = 3 := columnPart_length bytes i
  rw [columnWith, hsteps.append _ _ (by rw [hcell]; omega), pure_bind, columnCell, ← List.append_assoc]
  split
  · rw [hsteps.append]
    rw [List.length_append, hcell, List.length_singleton]
    exact hroom
  · rw [List.append_nil]

theorem columns_eq (bytes : Bytes) {line : Bytes} (start n : ℕ) (hroom : line.length + 4 * n < dumpLineSize) :
    (List.range' start n).foldlM (columnWith steps bytes) line = pure (line ++ columnText bytes start n) := by
  induction n generalizing start line with
  | zero => rw [columnText, List.range'_zero, List.foldlM_nil, List.flatMap_nil, List.append_nil]
  | succ n ih =>
    have hcell : (columnCell bytes start).length ≤ 4 := by
      rw [columnCell_length]
      split <;> omega
    have hnext : (line ++ columnCell bytes start).length + 4 * n < dumpLineSize := by
      rw [List.length_append]
      omega
    rw [List.range'_succ, List.foldlM_cons, columnWith_eq hsteps bytes start (by omega), pure_bind, ih _ hnext,
      columnText_succ, List.append_assoc]

theorem gutter_eq (bytes : Bytes) {line : Bytes} (hroom : line.length + bytes.length < dumpLineSize) :
    bytes.foldlM (fun line c => steps.push line (gutterByte c)) line = pure (line ++ bytes.map gutterByte) := by
  induction bytes generalizing line with
  | nil => rw [List.foldlM_nil, List.map_nil, List.append_nil]
  | cons c bytes ih =>
    rw [List.length_cons] at hroom
    have hnext : (line ++ [gutterByte c]).length + bytes.length < dumpLineSize := by
      rw [List.length_append, List.length_singleton]
      omega
    rw [List.foldlM_cons, hsteps.push _ _ (by omega), pure_bind, ih hnext, List.map_cons, List.append_assoc,
      List.singleton_append]

/-- With at most eight digits in front, the line is put down as it is. -/
theorem dumpLineWith_eq (data : Bytes) {offset : ℕ} (h : offset < 2 ^ 32) :
    dumpLineWith steps data offset = pure (lineParts (chunk data offset 16) offset).line := by
  have h16 : (chunk data offset 16).length ≤ 16 := List.length_take_le 16 _
  have hdigits : (padLeft 48 4 (hex offset)).length ≤ 8 := by
    have hlen : (hex offset).length ≤ 8 := numeral_length_le (by norm_num) (by norm_num) (h.trans_le (by norm_num))
    simp only [padLeft, List.length_append, List.length_replicate]
    omega
  have hcolumns := columnText_length (chunk data offset 16)
  have hstart : (padLeft 48 4 (hex offset) ++ [32,32]).length ≤ 10 := by
    rw [List.length_append]
    exact Nat.add_le_add_right hdigits 2
  have hhead : (padLeft 48 4 (hex offset) ++ [32,32] ++ columnText (chunk data offset 16) 0 16).length ≤ 59 := by
    rw [List.length_append, hcolumns]
    exact Nat.add_le_add_right hstart 49
  have hsize : dumpLineSize = 128 := rfl
  unfold dumpLineWith
  dsimp only
  rw [hsteps.append _ _ (by rw [List.length_nil]; omega), pure_bind, List.nil_append, List.range_eq_range',
    columns_eq hsteps _ 0 16 (by omega), pure_bind, hsteps.append _ _ (by rw [List.length_singleton]; omega), pure_bind,
    gutter_eq hsteps _ (by rw [List.length_append, List.length_singleton]; omega), pure_bind]
  refine hsteps.push _ _ ?_
  rw [List.length_append, List.length_append, List.length_map, List.length_singleton]
  omega

end Agree

theorem columnWith_model (bytes : Bytes) : columnWith modelSteps bytes = dumpColumn bytes := by
  funext line i
  unfold columnWith dumpColumn
  dsimp only
  split <;> rfl

/-- With the appends of the source it is the line of the model. -/
theorem dumpLineWith_model (data : Bytes) (offset : ℕ) : dumpLineWith modelSteps data offset = dumpLine data offset := by
  have hfold : ∀ {α : Type} (f : Bytes → α → Id Bytes) (xs : List α) (line : Bytes),
      xs.foldlM f line = xs.foldl f line := fun _ _ _ => List.idRun_foldlM
  have hbind : ∀ {α β : Type} (x : Id α) (f : α → Id β), (x >>= f) = f x := fun _ _ => rfl
  unfold dumpLineWith dumpLine
  simp only [hbind, hfold, List.foldl_map, columnWith_model]
  simp only [modelSteps]

/-- Below `2^32` the line of the model is the line without a limit. -/
theorem dumpLine_eq (data : Bytes) {offset : ℕ} (h : offset < 2 ^ 32) :
    dumpLine data offset = (lineParts (chunk data offset 16) offset).line := by
  rw [← dumpLineWith_model]
  exact dumpLineWith_eq modelSteps_agree data h

/-! ## The dump -/

theorem dumpLines_length (data : Bytes) (offset : ℕ) :
    (dumpLines data offset).length = (data.length - offset + 15) / 16 := by
  fun_induction dumpLines data offset with
  | case1 offset hlt ih =>
    rw [List.length_cons, ih]
    omega
  | case2 offset hge =>
    rw [List.length_nil]
    omega

theorem dumpLines_of_lt {data : Bytes} {offset : ℕ} (h : offset < data.length) :
    dumpLines data offset = dumpLine data offset :: dumpLines data (offset + 16) := by rw [dumpLines, if_pos h]

theorem dumpLines_getElem (data : Bytes) (offset i : ℕ) (h : i < (dumpLines data offset).length) :
    (dumpLines data offset)[i] = dumpLine data (offset + 16 * i) ∧ offset + 16 * i < data.length := by
  induction i generalizing offset with
  | zero =>
    have hlt : offset < data.length := by
      rw [dumpLines_length] at h
      omega
    refine ⟨?_,hlt⟩
    simp only [dumpLines_of_lt hlt, List.getElem_cons_zero, Nat.mul_zero, Nat.add_zero]
  | succ i ih =>
    have hlt : offset < data.length := by
      rw [dumpLines_length] at h
      omega
    have hnext : i < (dumpLines data (offset + 16)).length := by
      rw [dumpLines_length] at h ⊢
      omega
    obtain ⟨heq,hin⟩ := ih (offset + 16) hnext
    rw [show offset + 16 * (i + 1) = offset + 16 + 16 * i by ring]
    refine ⟨?_,hin⟩
    rw [← heq]
    simp only [dumpLines_of_lt hlt, List.getElem_cons_succ]

/-- The loop hands the lines to the callback. -/
theorem hexDumpFrom_eq {σ : Type} (write : σ → Bytes → Bool × σ) (data : Bytes) (offset : ℕ) (ctx : σ) :
    hexDumpFrom write data offset ctx = deliver write ctx (dumpLines data offset) := by
  fun_induction hexDumpFrom write data offset ctx with
  | case1 offset ctx hlt ctx' hw ih =>
    rw [dumpLines_of_lt hlt, deliver, hw]
    exact ih
  | case2 offset ctx hlt ctx' hw =>
    rw [dumpLines_of_lt hlt, deliver, hw]
  | case3 offset ctx hge =>
    rw [dumpLines, if_neg hge, deliver]

theorem zero_notMem_dumpLine (data : Bytes) (offset : ℕ) : 0 ∉ dumpLine data offset := by
  intro hzero
  rcases TerminalOutput.clean_dumpLine data offset 0 hzero with h | h
  · cases h
  · exact absurd h (by decide)

/-- What a dump says of its data, line by line and to any callback. -/
structure Lossless {σ : Type} (data : Bytes) (write : σ → Bytes → Bool × σ) (ctx : σ) (lines : List Bytes) : Prop where
  count : lines.length = (data.length + 15) / 16
  line : ∀ i (h : i < lines.length), ∃ p, lines[i] = p.line ∧ IsLine (chunk data (16 * i) 16) (16 * i) p
  noNul : ∀ line ∈ lines, 0 ∉ line
  appends : ∀ i (h : i < lines.length),
    dumpLineWith modelSteps data (16 * i) = lines[i] ∧ dumpLineWith strictSteps data (16 * i) = some lines[i]
  accepted : (∀ b ∈ answers write ctx lines, b = true) →
    ∃ ctx', nsHexDumpWith (logging write) data (ctx,[]) = (true,(ctx',lines))
  refused : ∀ j, RefusesCall write ctx lines j →
    ∃ ctx', nsHexDumpWith (logging write) data (ctx,[]) = (false,(ctx',lines.take j))

/-- No byte is lost in a dump, whatever its callback does. -/
theorem nsHexDump_lossless {σ : Type} (data : Bytes) (hn : data.length < 2 ^ 32) (write : σ → Bytes → Bool × σ) (ctx : σ) :
    Lossless data write ctx (nsHexDump data) := by
  have hline : ∀ i (h : i < (nsHexDump data).length),
      (nsHexDump data)[i] = dumpLine data (16 * i) ∧ 16 * i < data.length := by
    intro i h
    have hget := dumpLines_getElem data 0 i h
    rwa [Nat.zero_add] at hget
  have hfeed : ∀ log, nsHexDumpWith (logging write) data (ctx,log) = deliver (logging write) (ctx,log) (nsHexDump data) :=
    fun log => hexDumpFrom_eq (logging write) data 0 (ctx,log)
  refine ⟨?_,?_,?_,?_,?_,?_⟩
  · rw [nsHexDump, dumpLines_length, Nat.sub_zero]
  · intro i h
    obtain ⟨heq,hlt⟩ := hline i h
    rw [heq, dumpLine_eq data (by omega)]
    exact ⟨_,rfl,lineParts_isLine (List.length_take_le 16 _) (16 * i)⟩
  · intro line hmem
    obtain ⟨i,h,rfl⟩ := List.getElem_of_mem hmem
    rw [(hline i h).1]
    exact zero_notMem_dumpLine data (16 * i)
  · intro i h
    obtain ⟨heq,hlt⟩ := hline i h
    have hsmall : 16 * i < 2 ^ 32 := by omega
    rw [heq, dumpLineWith_model, dumpLineWith_eq strictSteps_agree data hsmall, dumpLine_eq data hsmall]
    exact ⟨rfl,rfl⟩
  · intro hall
    rw [hfeed]
    exact deliver_accepted hall []
  · intro j hj
    rw [hfeed]
    exact deliver_refused hj []

/-- Twenty bytes, and a callback that takes one line only. -/
theorem nsHexDump_lossless_twenty :
    (List.replicate 20 (0x41 : UInt8)).length < 2 ^ 32 ∧
      Lossless (List.replicate 20 0x41) (fun (calls : ℕ) (_ : Bytes) => (decide (calls < 1),calls + 1)) 0
        (nsHexDump (List.replicate 20 0x41)) := by
  have hn : (List.replicate 20 (0x41 : UInt8)).length < 2 ^ 32 := by rw [List.length_replicate]; norm_num
  exact ⟨hn,nsHexDump_lossless (List.replicate 20 0x41) hn _ 0⟩

end Netscope.HexDump
