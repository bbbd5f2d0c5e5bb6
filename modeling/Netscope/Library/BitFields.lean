import Mathlib.Data.UInt
import Mathlib.Tactic

/-! # Fields packed into one word

A word that holds several fields is written as the sum of the fields scaled by
their positions. Shifting and masking read the fields back as long as each fits its
width.
-/
namespace BitFields

/-- A byte with a high field above a low field of `k` bits. -/
def pack8 (k : ℕ) (high low : UInt8) : UInt8 := UInt8.ofNat (high.toNat * 2 ^ k + low.toNat)

/-- A 16-bit word with a high field above a low field of `k` bits. -/
def pack16 (k : ℕ) (high low : UInt16) : UInt16 := UInt16.ofNat (high.toNat * 2 ^ k + low.toNat)

/-- Two fields fit side by side. -/
theorem packed_lt {high low j k : ℕ} (hh : high < 2 ^ j) (hl : low < 2 ^ k) : high * 2 ^ k + low < 2 ^ (j + k) := by
  calc high * 2 ^ k + low < high * 2 ^ k + 2 ^ k := by omega
    _ = (high + 1) * 2 ^ k := by ring
    _ ≤ 2 ^ j * 2 ^ k := Nat.mul_le_mul_right _ hh
    _ = 2 ^ (j + k) := (pow_add 2 j k).symm

theorem packed_div {high low k : ℕ} (hl : low < 2 ^ k) : (high * 2 ^ k + low) / 2 ^ k = high := by
  rw [Nat.add_comm, Nat.add_mul_div_right _ _ (Nat.two_pow_pos k), Nat.div_eq_of_lt hl, Nat.zero_add]

theorem packed_mod {high low k : ℕ} (hl : low < 2 ^ k) : (high * 2 ^ k + low) % 2 ^ k = low := by
  rw [Nat.add_comm, Nat.add_mul_mod_self_right, Nat.mod_eq_of_lt hl]

section Byte
variable {j k : ℕ} {high low : UInt8} (hw : j + k = 8) (hh : high.toNat < 2 ^ j) (hl : low.toNat < 2 ^ k)
include hw hh hl

theorem pack8_toNat : (pack8 k high low).toNat = high.toNat * 2 ^ k + low.toNat := by
  have hlt := packed_lt hh hl
  rw [hw] at hlt
  exact UInt8.toNat_ofNat_of_lt' hlt

theorem pack8_high (hk : k < 8) : pack8 k high low >>> UInt8.ofNat k = high := by
  apply UInt8.toNat_inj.mp
  rw [UInt8.toNat_shiftRight, pack8_toNat hw hh hl, UInt8.toNat_ofNat_of_lt' (hk.trans (by decide)), Nat.mod_eq_of_lt hk,
    Nat.shiftRight_eq_div_pow, packed_div hl]

theorem pack8_low : pack8 k high low &&& UInt8.ofNat (2 ^ k - 1) = low := by
  have hk : 2 ^ k ≤ 2 ^ 8 := Nat.pow_le_pow_right (by omega) (by omega)
  have hmask : (UInt8.ofNat (2 ^ k - 1)).toNat = 2 ^ k - 1 := UInt8.toNat_ofNat_of_lt' (by
    have := Nat.two_pow_pos k
    simp only [UInt8.size]
    omega)
  apply UInt8.toNat_inj.mp
  rw [UInt8.toNat_and, pack8_toNat hw hh hl, hmask, Nat.and_two_pow_sub_one_eq_mod, packed_mod hl]

end Byte

theorem pack16_low {j k : ℕ} {high low : UInt16} (hw : j + k = 16) (hh : high.toNat < 2 ^ j) (hl : low.toNat < 2 ^ k) :
    pack16 k high low &&& UInt16.ofNat (2 ^ k - 1) = low := by
  have hlt := packed_lt hh hl
  rw [hw] at hlt
  have hk : 2 ^ k ≤ 2 ^ 16 := Nat.pow_le_pow_right (by omega) (by omega)
  have hmask : (UInt16.ofNat (2 ^ k - 1)).toNat = 2 ^ k - 1 := UInt16.toNat_ofNat_of_lt' (by
    have := Nat.two_pow_pos k
    simp only [UInt16.size]
    omega)
  have hpack : (pack16 k high low).toNat = high.toNat * 2 ^ k + low.toNat := UInt16.toNat_ofNat_of_lt' hlt
  apply UInt16.toNat_inj.mp
  rw [UInt16.toNat_and, hpack, hmask, Nat.and_two_pow_sub_one_eq_mod, packed_mod hl]

/-! ## The fields of a word -/

end BitFields
