import Mathlib.Data.List.Basic
import Mathlib.Tactic

/-! # The leftmost longest run

A scan over truth values knows two runs: the one that ends where it stands and the first
of the longest ones so far. Both are followed through one more value.
-/
namespace LongestRun

/-- The `len` values from `start` on are all true. -/
def IsRun (xs : List Bool) (start len : ℕ) : Prop := ∀ i, start ≤ i → i < start + len → xs[i]? = some true

/-- The run at the end of the values. -/
structure Ending (xs : List Bool) (len : ℕ) : Prop where
  le : len ≤ xs.length
  run : IsRun xs (xs.length - len) len
  longest : ∀ s, IsRun xs s (xs.length - s) → xs.length - len ≤ s

/-- No run is longer, and none of this length starts earlier. Without any run the length is zero. -/
structure LeftmostLongest (xs : List Bool) (start len : ℕ) : Prop where
  run : IsRun xs start len
  longest : ∀ s l, IsRun xs s l → l ≤ len
  leftmost : 0 < len → ∀ s, IsRun xs s len → start ≤ s

section Runs
variable {xs : List Bool} {start len : ℕ}

theorem IsRun.append (h : IsRun xs start len) (ys : List Bool) : IsRun (xs ++ ys) start len := by
  intro i hi hlt
  have hget := h i hi hlt
  rw [List.getElem?_append_left (List.getElem?_eq_some_iff.mp hget).1, hget]

theorem isRun_zero (xs : List Bool) (start : ℕ) : IsRun xs start 0 := by
  intro i hi hlt
  omega

theorem IsRun.end_le (h : IsRun xs start len) (hpos : 0 < len) : start + len ≤ xs.length := by
  have hget := h (start + len - 1) (by omega) (by omega)
  have hlt := (List.getElem?_eq_some_iff.mp hget).1
  omega

theorem IsRun.take (h : IsRun xs start len) {n : ℕ} (hn : n ≤ len) : IsRun xs start n :=
  fun i hi hlt => h i hi (by omega)

/-- A run of the values read so far and one more. -/
theorem isRun_snoc {b : Bool} (h : IsRun (xs ++ [b]) start len) (hpos : 0 < len) :
    IsRun xs start len ∨ b = true ∧ start + len = xs.length + 1 ∧ IsRun xs start (xs.length - start) := by
  have hend := h.end_le hpos
  rw [List.length_append, List.length_singleton] at hend
  have hold : ∀ i, start ≤ i → i < start + len → i < xs.length → xs[i]? = some true := by
    intro i hi hlt hin
    have hget := h i hi hlt
    rwa [List.getElem?_append_left hin] at hget
  rcases hend.lt_or_eq with hlt | heq
  · left
    intro i hi hi'
    exact hold i hi hi' (by omega)
  · right
    have hlast := h xs.length (by omega) (by omega)
    rw [List.getElem?_append_right le_rfl, Nat.sub_self, List.getElem?_cons_zero] at hlast
    refine ⟨Option.some.inj hlast,heq,?_⟩
    intro i hi hi'
    exact hold i hi (by omega) (by omega)

/-! ## The run at the end -/

theorem ending_nil : Ending [] 0 := ⟨le_rfl,isRun_zero [] 0,fun _ _ => Nat.zero_le _⟩

theorem ending_false (xs : List Bool) : Ending (xs ++ [false]) 0 := by
  refine ⟨Nat.zero_le _,isRun_zero _ _,?_⟩
  intro s hs
  by_contra hlt
  rcases isRun_snoc hs (by omega) with hrun | ⟨hb,_⟩
  · have hend := hrun.end_le (by omega)
    rw [List.length_append, List.length_singleton] at hend hlt
    omega
  · cases hb

theorem Ending.extend {n : ℕ} (h : Ending xs n) : Ending (xs ++ [true]) (n + 1) := by
  have hle := h.le
  have hlength : (xs ++ [true]).length - (n + 1) = xs.length - n := by
    rw [List.length_append, List.length_singleton]
    omega
  refine ⟨?_,?_,?_⟩
  · rw [List.length_append, List.length_singleton]
    omega
  · rw [hlength]
    intro i hi hlt
    rcases Nat.lt_or_ge i xs.length with hin | hout
    · rw [List.getElem?_append_left hin]
      exact h.run i hi (by omega)
    · obtain rfl : i = xs.length := by omega
      rw [List.getElem?_append_right le_rfl, Nat.sub_self, List.getElem?_cons_zero]
  · intro s hs
    rw [hlength]
    rw [List.length_append, List.length_singleton] at hs
    rcases Nat.lt_or_ge xs.length s with hgt | hs'
    · omega
    · rcases isRun_snoc hs (by omega) with hrun | ⟨_,_,hrun⟩
      · have hend := hrun.end_le (by omega)
        omega
      · exact h.longest s hrun

/-! ## The first longest run -/

theorem leftmostLongest_nil (start : ℕ) : LeftmostLongest [] start 0 := by
  refine ⟨isRun_zero _ _,?_,fun h => absurd h (lt_irrefl 0)⟩
  intro s l hs
  by_contra hpos
  have hend := hs.end_le (by omega)
  simp only [List.length_nil] at hend
  omega

theorem LeftmostLongest.pass (h : LeftmostLongest xs start len) : LeftmostLongest (xs ++ [false]) start len := by
  have hold : ∀ s l, 0 < l → IsRun (xs ++ [false]) s l → IsRun xs s l := by
    intro s l hpos hs
    rcases isRun_snoc hs hpos with hrun | ⟨hb,_⟩
    · exact hrun
    · cases hb
  refine ⟨h.run.append _,?_,fun hpos s hs => h.leftmost hpos s (hold s len hpos hs)⟩
  intro s l hs
  rcases Nat.eq_zero_or_pos l with rfl | hpos
  · exact Nat.zero_le len
  · exact h.longest s l (hold s l hpos hs)

/-- The run at the end becomes the longest one. -/
theorem LeftmostLongest.grow {n : ℕ} (h : LeftmostLongest xs start len) (he : Ending xs n) (hgt : len < n + 1) :
    LeftmostLongest (xs ++ [true]) (xs.length - n) (n + 1) := by
  have hnew := he.extend.run
  have hle := he.le
  have hold : ∀ s l, n + 1 ≤ l → IsRun (xs ++ [true]) s l → s + l = xs.length + 1 ∧ xs.length - n ≤ s := by
    intro s l hl hs
    rcases isRun_snoc hs (by omega) with hrun | ⟨_,heq,hrun⟩
    · have hlong := h.longest s l hrun
      omega
    · exact ⟨heq,he.longest s hrun⟩
  refine ⟨?_,?_,fun _ s hs => (hold s (n + 1) le_rfl hs).2⟩
  · rw [List.length_append, List.length_singleton, Nat.add_sub_add_right] at hnew
    exact hnew
  · intro s l hs
    by_contra hlt
    obtain ⟨heq,hge⟩ := hold s l (by omega) hs
    omega

/-- A longer or equally long run comes first. -/
theorem LeftmostLongest.keep {n : ℕ} (h : LeftmostLongest xs start len) (he : Ending xs n) (hle : n + 1 ≤ len) :
    LeftmostLongest (xs ++ [true]) start len := by
  have hend := h.run.end_le (by omega)
  refine ⟨h.run.append _,?_,?_⟩
  · intro s l hs
    rcases Nat.eq_zero_or_pos l with rfl | hpos
    · exact Nat.zero_le len
    · rcases isRun_snoc hs hpos with hrun | ⟨_,heq,hrun⟩
      · exact h.longest s l hrun
      · have hge := he.longest s hrun
        omega
  · intro hpos s hs
    rcases isRun_snoc hs hpos with hrun | ⟨_,heq,_⟩
    · exact h.leftmost hpos s hrun
    · omega

end Runs

end LongestRun
