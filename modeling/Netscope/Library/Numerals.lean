import Netscope.Library.ByteString

/-! # Numerals as printed bytes

Unsigned numbers are printed without leading zeros in a base of at most sixteen.
The numeral determines the number, consists of digit bytes only, and its length
is bounded by the size of the number.
-/
namespace Numerals
open ByteString

def ascii (s : String) : Bytes := s.toList.map Char.toUInt8

def digitByte (d : ℕ) : UInt8 := (Nat.digitChar d).toUInt8

def numeral (b n : ℕ) : Bytes := (Nat.toDigits b n).map Char.toUInt8

/-- The conversion `%u`. -/
abbrev decimal (n : ℕ) : Bytes := numeral 10 n

/-- The conversion `%x`. -/
abbrev hex (n : ℕ) : Bytes := numeral 16 n

/-- Padding on the left to a minimal field width. -/
def padLeft (fill : UInt8) (width : ℕ) (s : Bytes) : Bytes := List.replicate (width - s.length) fill ++ s

/-- Padding on the right to a minimal field width. -/
def padRight (fill : UInt8) (width : ℕ) (s : Bytes) : Bytes := s ++ List.replicate (width - s.length) fill

/-- The value of a digit byte, inverse to `digitByte`. -/
def digitValue (c : UInt8) : ℕ := if c.toNat < 58 then c.toNat - 48 else c.toNat - 87

theorem digitValue_digitByte {d : ℕ} (h : d < 16) : digitValue (digitByte d) = d := by
  revert d
  decide

theorem numeral_of_lt {b n : ℕ} (h : n < b) : numeral b n = [digitByte n] := by
  simp [numeral, digitByte, Nat.toDigits_of_lt_base h]

theorem numeral_append {b n d : ℕ} (hb : 1 < b) (hn : 0 < n) (hd : d < b) :
    numeral b (b * n + d) = numeral b n ++ [digitByte d] := by
  simp [numeral, digitByte, ← Nat.toDigits_append_toDigits hb hn hd, Nat.toDigits_of_lt_base hd]

@[simp] theorem numeral_ne_nil (b n : ℕ) : numeral b n ≠ [] := by simp [numeral]

theorem numeral_length_le {b n k : ℕ} (hb : 1 < b) (hk : 0 < k) (hn : n < b ^ k) : (numeral b n).length ≤ k := by
  simpa [numeral] using (Nat.length_toDigits_le_iff hb hk).mpr hn

theorem mem_numeral {b n : ℕ} (hb : 1 < b) {c : UInt8} (hc : c ∈ numeral b n) : ∃ d < b, c = digitByte d := by
  induction n using Nat.base_induction b hb with
  | single m hm =>
    rw [numeral_of_lt hm, List.mem_singleton] at hc
    exact ⟨m,hm,hc⟩
  | digit m k hk hm ih =>
    rw [numeral_append hb hm hk, List.mem_append, List.mem_singleton] at hc
    rcases hc with hc | hc
    · exact ih hc
    · exact ⟨k,hk,hc⟩

/-- What holds of the digits holds of the bytes of a numeral. -/
theorem forall_mem_numeral {b : ℕ} (hb : 1 < b) {n : ℕ} {P : UInt8 → Prop} (h : ∀ d < b, P (digitByte d)) :
    ∀ c ∈ numeral b n, P c := by
  intro c hc
  obtain ⟨d,hd,rfl⟩ := mem_numeral hb hc
  exact h d hd

/-- Reading a numeral digit by digit. -/
def value (b : ℕ) (s : Bytes) : ℕ := s.foldl (fun acc c => b * acc + digitValue c) 0

theorem value_numeral {b : ℕ} (hb : 1 < b) (hb16 : b ≤ 16) (n : ℕ) : value b (numeral b n) = n := by
  induction n using Nat.base_induction b hb with
  | single m hm => simp [value, numeral_of_lt hm, digitValue_digitByte (show m < 16 by omega)]
  | digit m k hk hm ih =>
    have hd : digitValue (digitByte k) = k := digitValue_digitByte (by omega)
    rw [value] at ih
    rw [numeral_append hb hm hk, value, List.foldl_append, ih, List.foldl_cons, List.foldl_nil, hd]

theorem numeral_injective {b : ℕ} (hb : 1 < b) (hb16 : b ≤ 16) : Function.Injective (numeral b) :=
  Function.LeftInverse.injective (value_numeral hb hb16)

/-- A numeral of two digits or more does not start with a zero. -/
theorem numeral_head_ne_zero {b : ℕ} (hb : 1 < b) (hb16 : b ≤ 16) {n : ℕ} (h : 1 < (numeral b n).length) :
    (numeral b n).head? ≠ some 48 := by
  have hpos : 0 < n := by
    rcases Nat.eq_zero_or_pos n with rfl | hpos
    · simp [numeral_of_lt (show 0 < b by omega)] at h
    · exact hpos
  clear h
  induction n using Nat.base_induction b hb with
  | single m hm =>
    have hdigit : ∀ d < 16, 0 < d → digitByte d ≠ 48 := by decide
    simpa [numeral_of_lt hm] using hdigit m (by omega) hpos
  | digit m k hk hm ih =>
    rw [numeral_append hb hm hk, List.head?_append_of_ne_nil _ (numeral_ne_nil b m)]
    exact ih hm

/-! ## Printable bytes -/

/-- A byte of printable ASCII. -/
def Printable (c : UInt8) : Prop := 0x20 ≤ c ∧ c ≤ 0x7e

instance (c : UInt8) : Decidable (Printable c) := inferInstanceAs (Decidable (_ ∧ _))

theorem digitByte_printable {d : ℕ} (h : d < 16) : Printable (digitByte d) := by
  revert d
  decide

theorem numeral_printable {b : ℕ} (hb : 1 < b) (hb16 : b ≤ 16) (n : ℕ) : ∀ c ∈ numeral b n, Printable c :=
  forall_mem_numeral hb (fun _ hd => digitByte_printable (hd.trans_le hb16))

/-- No separator of an address text is a digit. -/
theorem digitByte_ne_separator {d : ℕ} (h : d < 16) : digitByte d ≠ 46 ∧ digitByte d ≠ 58 ∧ digitByte d ≠ 0 := by
  revert d
  decide

end Numerals
